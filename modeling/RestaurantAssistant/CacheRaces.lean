import RestaurantAssistant.Coherence

/-!
# Queries in flight with reservations and cancellations

A query fetches from the tables and stores its answer in two separate steps.
If every query is as declared and every answer is stored while the tables still are
as it saw them, or while a mutation that has changed them is still to scan for its
key, the cache is coherent whenever no request is in flight (`coherent_when_quiet`).
A slow query that stores after the scan brings the old answer back
(`slow_query_resurrects_stale_answer`).
-/

namespace RestaurantAssistant

open Awaiting Js

variable {db : QueryEngine} {cfg : Config} {rounds : Nat}

/-! ## Where a query stands -/

/-- Every fetch of the program so far saw these reservations. -/
def Saw (reservations : List Reservation) (h : History api World) : Prop :=
  ∀ (call : DbCall) (s : World), (.db call, s) ∈ h → s.tables.reservations = reservations

/-- Where a query stands: it writes nothing, and what it is about to store is
the answer of the tables it saw, if it saw one version of them. -/
structure ReadsThrough (db : QueryEngine) (cfg : Config) (q : Query) (h : History api World)
    (p : Async api Response) : Prop where
  reads : ∀ call, p.next? = some call → call.writes = false
  unchanged : ¬ Changed db h
  stores : ∀ key value ttl, p.next? = some (.redis (.set key value ttl)) → key = q.key ∧
    ∀ T : Tables, Saw T.reservations h → fresh db cfg T q = some value

theorem not_changed_cons {h : History api World} (call : Call) (s : World)
    (reads : call.writes = false) (unchanged : ¬ Changed db h) :
    ¬ Changed db ((call, s) :: h) := by
  intro changed
  obtain ⟨call', s', member, changes⟩ := changed
  rcases List.mem_cons.mp member with same | earlier
  · cases same
    rw [writes_of_changes changes] at reads
    cases reads
  · exact unchanged ⟨call', s', earlier, changes⟩

/-- A step of a query that stores nothing. -/
theorem ReadsThrough.reading {q : Query} {h : History api World} {p : Async api Response}
    (unchanged : ¬ Changed db h) (reads : ∀ call, p.next? = some call → call.writes = false)
    (noSet : ∀ key value ttl, p.next? ≠ some (.redis (.set key value ttl))) :
    ReadsThrough db cfg q h p :=
  ⟨reads, unchanged, fun key value ttl sets => absurd sets (noSet key value ttl)⟩

theorem ReadsThrough.ended {q : Query} {h : History api World} {p : Async api Response}
    (unchanged : ¬ Changed db h) (next : p.next? = none) : ReadsThrough db cfg q h p := by
  refine .reading unchanged ?_ ?_
  · intro call calls
    rw [next] at calls
    cases calls
  · intro key value ttl sets
    rw [next] at sets
    cases sets

theorem always_get {α : Type} {key : String} {k : Except Exn (Option QueryOutput) → Async api α}
    {h : History api World} {inv : History api World → Async api α → Prop}
    (here : inv h (.await (.redis (.get key)) k))
    (later : ∀ s : World, (k (.ok (s.redis.get key))).Always (interp db) inv
      ((.redis (.get key), s) :: h)) :
    (Async.await (.redis (.get key)) k : Async api α).Always (interp db) inv h := by
  refine ⟨here, fun c s r s' answered => ?_⟩
  obtain ⟨-, rfl, -⟩ := interp_get.mp answered
  exact later s

theorem always_set {α : Type} {key : String} {value : QueryOutput} {ttl : Nat}
    {k : Except Exn Unit → Async api α} {h : History api World}
    {inv : History api World → Async api α → Prop}
    (here : inv h (.await (.redis (.set key value ttl)) k))
    (later : ∀ s : World, (k (.ok ())).Always (interp db) inv
      ((.redis (.set key value ttl), s) :: h)) :
    (Async.await (.redis (.set key value ttl)) k : Async api α).Always (interp db) inv h := by
  refine ⟨here, fun c s r s' answered => ?_⟩
  obtain ⟨-, rfl, -⟩ := interp_set.mp answered
  exact later s

/-- The last two steps of a query: store the answer and return it. -/
theorem store_always {q : Query} {h : History api World} {value : QueryOutput}
    (unchanged : ¬ Changed db h)
    (answer : ∀ T : Tables, Saw T.reservations h → fresh db cfg T q = some value) :
    ((redisService.set q.key value 300 >>= fun _ => .pure value).tryCatch
      (fun _ => .throw (q.failure : Exn)) >>= fun out => .pure (.queried out)).Always
        (interp db) (ReadsThrough db cfg q) h := by
  refine always_set ⟨?_, unchanged, ?_⟩ fun s => ?_
  · intro call next
    cases next
    rfl
  · intro key value' ttl sets
    cases sets
    exact ⟨rfl, answer⟩
  · exact .ended (not_changed_cons _ s rfl unchanged) rfl

/-- Every query reads through at every step. -/
theorem query_readsThrough {q : Query} (conform : q.conform = true) :
    ((Request.query q).handle cfg rounds).Always (interp db) (ReadsThrough db cfg q) [] := by
  have nothing : ¬ Changed db [] := Reading.nil.not_changed
  have read : ∀ {h : History api World} {call : DbCall} {k : Except Exn call.Reply → _},
      call.writes = false → ¬ Changed db h →
      ReadsThrough db cfg q h (.await (.db call) k) := by
    intro h call k reads unchanged
    refine .reading unchanged ?_ ?_
    · intro call' next
      cases next
      exact reads
    · intro key value ttl sets
      cases sets
  change (Response.queried <$> q.handle cfg).Always _ _ _
  rw [Query.handle_eq conform]
  refine always_get (.reading nothing ?_ ?_) fun s => ?_
  · intro call next
    cases next
    rfl
  · intro key value ttl sets
    cases sets
  have missed := not_changed_cons (.redis (.get q.key)) s rfl nothing
  cases s.redis.get q.key with
  | some value => exact .ended missed rfl
  | none =>
    cases q with
    | getReservations filter pagination sort =>
      refine always_db (read rfl missed) fun s₁ => ?_
      refine always_db (read rfl (not_changed_cons _ s₁ rfl missed)) fun s₂ => ?_
      refine store_always (not_changed_cons _ s₂ rfl (not_changed_cons _ s₁ rfl missed)) ?_
      intro T saw
      have items := saw (.getMany (listingQuery filter pagination sort)) s₁ (by simp)
      have count := saw (.getCount (listingQuery filter pagination sort)) s₂ (by simp)
      rw [fresh_eq, Query.answer, ← items, count, items]
    | checkAvailability data =>
      refine always_db (read rfl missed) fun s₁ => ?_
      have fetched := not_changed_cons (.db (.findReservations data.date)) s₁ rfl missed
      simp only [Tables.answer, ofExcept_ok, Async.bind]
      cases found : availabilityOf cfg ((s₁.tables.on data.date).map Reservation.toBooking)
        data with
      | none => exact .ended fetched rfl
      | some out =>
        refine store_always fetched ?_
        intro T saw
        have rows := saw (.findReservations data.date) s₁ (by simp)
        rw [fresh_eq, Query.answer, ← rows]
        unfold Tables.on at found
        rw [found]
        rfl

/-! ## All requests together -/

/-- The requests in flight here: queries that conform to their declared format, reservations
and cancellations. -/
def Request.bookings : Request → Bool
  | .query q => q.conform
  | .mutation (.createReservation _) => true
  | .mutation (.cancelReservation _) => true
  | .mutation (.updateReservation _) => false

/-- Is the event no arrival of another request? -/
def bookingEvent : Event Request Choice String → Bool
  | .arrive r => r.bookings
  | _ => true

/-- Only such requests arrive, so that every query conforms to its declared format; and
when a query stores its answer, the tables still are as it saw them, or a request that
has changed them is still to scan for the key. -/
def StoresInTime (db : QueryEngine) (P : Pool api Request World Response) :
    Event Request Choice String → Prop
  | .arrive r => r.bookings = true
  | .resume i _ => ∀ proc key value ttl, P.procs[i]? = some proc →
      proc.prog.next? = some (.redis (.set key value ttl)) →
      Saw P.shared.tables.reservations proc.history ∨
        ∃ other ∈ P.procs, Changed db other.history ∧ ¬ Begun key other.history
  | .env _ => True

/-- Where a request stands. -/
def Stands (db : QueryEngine) (cfg : Config) (r : Request) (h : History api World)
    (p : Async api Response) : Prop :=
  match r with
  | .query q => q.conform = true ∧ ReadsThrough db cfg q h p
  | .mutation m => WritesThenClears db m h p

theorem stands_of_arrival {r : Request} (bookings : r.bookings = true) :
    (r.handle cfg rounds).Always (interp db) (Stands db cfg r) [] := by
  rcases r with q | m
  · exact (query_readsThrough bookings).mono fun h p reads => ⟨bookings, reads⟩
  · cases m with
    | createReservation data => exact create_writesThenClears
    | cancelReservation id => exact cancel_writesThenClears cfg
    | updateReservation data => cases bookings

/-- Every entry is fresh, or some request in flight will delete it. -/
def Settled (db : QueryEngine) (cfg : Config) (P : Pool api Request World Response) : Prop :=
  ∀ e ∈ P.shared.redis.entries, FreshEntry db cfg P.shared.tables e ∨
    ∃ proc ∈ P.procs, Owes e.key e.born proc.prog

/-- One step of a query. -/
theorem ReadsThrough.step {q : Query} {h : History api World} {call : Call}
    {k : Except Exn call.Reply → Async api Response} {c : Choice} {r : Except Exn call.Reply}
    {others : String → Nat → Prop} {w w' : World} (conform : q.conform = true)
    (before : ReadsThrough db cfg q h (.await call k))
    (answered : (interp db).answer c call w = some (r, w'))
    (settled : ∀ e ∈ w.redis.entries, FreshEntry db cfg w.tables e ∨
      Owes e.key e.born (.await call k) ∨ others e.key e.born)
    (stored : ∀ key value ttl, call = .redis (.set key value ttl) →
      Saw w.tables.reservations h ∨ ∀ b, others key b) :
    ∀ e ∈ w'.redis.entries, FreshEntry db cfg w'.tables e ∨ Owes e.key e.born (k r) ∨
      others e.key e.born := by
  intro e member
  have unchanged : ¬ call.changes db w := by
    intro changes
    have reads := before.reads call rfl
    rw [writes_of_changes changes] at reads
    cases reads
  have same := reservations_of_answer unchanged answered
  have kept : e ∈ w.redis.entries → FreshEntry db cfg w'.tables e ∨ Owes e.key e.born (k r) ∨
      others e.key e.born := by
    intro was
    rcases settled e was with entry | owes | other
    · exact .inl (entry.congr same)
    · exact .inr (.inl (owes.step answered ⟨e, member, rfl, rfl⟩))
    · exact .inr (.inr other)
  by_cases sets : ∃ key value ttl, call = .redis (.set key value ttl)
  · obtain ⟨key, value, ttl, rfl⟩ := sets
    obtain ⟨rfl, answer⟩ := before.stores key value ttl rfl
    obtain ⟨-, -, rfl⟩ := interp_set.mp answered
    rcases Redis.mem_set member with ⟨was, _⟩ | ⟨key, rfl⟩
    · exact kept was
    · rcases stored q.key e.value ttl rfl with saw | owed
      · exact .inl (.of_query conform key (answer _ saw))
      · exact .inr (.inr (key ▸ owed e.born))
  · refine kept (entries_of_answer ?_ answered e member)
    intro key value ttl equal
    exact sets ⟨key, value, ttl, equal⟩

/-- A request that has changed the tables and has not begun to scan for a key
will delete whatever the key holds. -/
theorem owes_of_changed {r : Request} {h : History api World} {p : Async api Response}
    {key : String}
    (stands : Stands db cfg r h p) (cleared : Cleared key) (changed : Changed db h)
    (unscanned : ¬ Begun key h) (b : Nat) : Owes key b p := by
  rcases r with q | m
  · exact absurd changed stands.2.unchanged
  · rcases stands.sweeps changed key cleared with begun | sweeps
    · exact absurd begun unscanned
    · exact sweeps.owes

/-- A resumed request keeps the cache settled. -/
theorem settled_resume {P : Pool api Request World Response} {i : Nat} {c : Choice} {w' : World}
    {proc : Proc api Request World Response} {call : Call}
    {k : Except Exn call.Reply → Async api Response} {r : Except Exn call.Reply}
    (stands : P.Always (Stands db cfg) (interp db)) (settled : Settled db cfg P)
    (good : StoresInTime db P (.resume i c)) (found : P.procs[i]? = some proc)
    (suspended : proc.prog = .await call k)
    (answered : (interp db).answer c call P.shared = some (r, w')) :
    Settled db cfg ⟨w', P.procs.set i (proc.resumed call P.shared (k r))⟩ := by
  -- what the other requests owe they still owe afterwards
  let others (K : String) (b : Nat) : Prop :=
    ∃ j proc', j ≠ i ∧ P.procs[j]? = some proc' ∧ Owes K b proc'.prog
  have before : ∀ e ∈ P.shared.redis.entries, FreshEntry db cfg P.shared.tables e ∨
      Owes e.key e.born (.await call k) ∨ others e.key e.born := by
    intro e member
    rcases settled e member with entry | ⟨proc', inPool, owes⟩
    · exact .inl entry
    · obtain ⟨j, at_j⟩ := List.mem_iff_getElem?.mp inPool
      by_cases same : j = i
      · rw [same, found] at at_j
        cases at_j
        exact .inr (.inl (suspended ▸ owes))
      · exact .inr (.inr ⟨j, proc', same, at_j, owes⟩)
  have now := stands proc (List.mem_of_getElem? found)
  rw [suspended] at now
  have here := now.1
  have there := (now.2 c P.shared r w' answered).here
  have after : ∀ e ∈ w'.redis.entries, FreshEntry db cfg w'.tables e ∨ Owes e.key e.born (k r) ∨
      others e.key e.born := by
    cases request : proc.request with
    | mutation m =>
      rw [request] at here there
      exact WritesThenClears.step here there answered before
    | query q =>
      rw [request] at here
      refine ReadsThrough.step here.1 here.2 answered before ?_
      intro key value ttl sets
      subst sets
      rcases good proc key value ttl found (by rw [suspended]; rfl) with saw |
        ⟨other, inPool, changed, unscanned⟩
      · exact .inl saw
      · obtain ⟨j, at_j⟩ := List.mem_iff_getElem?.mp inPool
        have distinct : j ≠ i := by
          intro same
          rw [same, found] at at_j
          cases at_j
          exact here.2.unchanged changed
        have cleared : Cleared key := (here.2.stores key value ttl rfl).1 ▸ q.cleared_key
        exact .inr fun b => ⟨j, other, distinct, at_j,
          owes_of_changed (stands other inPool).here cleared changed unscanned b⟩
  intro e member
  rcases after e member with entry | owes | ⟨j, proc', distinct, at_j, owes⟩
  · exact .inl entry
  · have inRange := (List.getElem?_eq_some_iff.mp found).1
    exact .inr ⟨_, List.mem_set inRange _, owes⟩
  · refine .inr ⟨proc', List.mem_of_getElem? (i := j) ?_, owes⟩
    rw [List.getElem?_set_ne distinct.symm]
    exact at_j

/-- **One event keeps the cache settled.** -/
theorem settled_step {P P' : Pool api Request World Response}
    {e : Event Request Choice String} (stands : P.Always (Stands db cfg) (interp db))
    (settled : Settled db cfg P) (good : StoresInTime db P e)
    (fired : (server db cfg rounds).fire e P = some P') : Settled db cfg P' := by
  rcases Server.fire_cases fired with ⟨r, rfl, rfl⟩ |
    ⟨i, c, proc, call, k, r, s', rfl, found, suspended, answered, rfl⟩ | ⟨key, rfl, rfl⟩
  · intro e member
    rcases settled e member with entry | ⟨proc, inPool, owes⟩
    · exact .inl entry
    · exact .inr ⟨proc, List.mem_append_left _ inPool, owes⟩
  · exact settled_resume stands settled good found suspended answered
  · intro e member
    exact settled e (Redis.mem_del.mp member).1

/-- **A slow query does not bring stale data back** if all queries are as declared and
store in time: whenever no request is in flight, every cache entry is fresh. -/
theorem coherent_when_quiet {w : World} {P : Pool api Request World Response}
    {events : List (Event Request Choice String)} (coherent : Coherent db cfg w)
    (ran : (server db cfg rounds).run events ⟨w, []⟩ = some P)
    (inTime : (server db cfg rounds).Along (StoresInTime db) events ⟨w, []⟩)
    (quiet : P.Quiet) : Coherent db cfg P.shared := by
  have kept := Server.run_preserves_always (Stands db cfg) (Settled db cfg)
    (fun arrives => stands_of_arrival arrives) (fun stands settled => settled_step stands settled)
    ran inTime (Pool.always_nil _) fun e member => .inl (coherent e member)
  intro e member
  rcases kept.2 e member with entry | ⟨proc, inPool, owes⟩
  · exact entry
  · have finished := quiet proc inPool
    rw [owes.not_finished] at finished
    cases finished

/-! ## A slow query -/

/-- A query for a seat at 18:00 fetches; then all seats are taken; then it stores. -/
def slowQuery : List (Event Request Choice String) :=
  [.arrive (.query seatAtSix), .resume 0 .reply, .resume 0 .reply,
    .arrive (.mutation (.createReservation ⟨"Ada", "2025-03-10", "18:00", 10⟩)),
    .resume 1 .reply, .resume 1 .reply, .resume 1 .reply, .resume 1 .reply,
    .resume 1 (.batch true []), .resume 1 (.batch true []), .resume 0 .reply]

/-- The answer from before the reservation. -/
def seatLeftAtSix : Entry QueryOutput :=
  ⟨"availability:2025-03-10:18:00-none:1", .availability ⟨"Time slot available", ["18:00"]⟩, 0⟩

/-- A query that stores after the scan brings the old answer back. -/
theorem slow_query_resurrects_stale_answer :
    ¬ ∀ (db : QueryEngine) (cfg : Config) (rounds : Nat) (w : World)
      (P : Pool api Request World Response) (events : List (Event Request Choice String)),
      Coherent db cfg w → (server db cfg rounds).run events ⟨w, []⟩ = some P →
      events.all bookingEvent = true → P.Quiet → Coherent db cfg P.shared := by
  intro claim
  have result : (((server .inMemory .default 0).run slowQuery ⟨.empty, []⟩).map fun P =>
      (P.procs.all fun proc => proc.prog.finished, P.shared)) =
        some (true, ⟨oneFull, ⟨[seatLeftAtSix], 1⟩⟩) := by
    decide +kernel
  obtain ⟨P, ran, same⟩ := Option.map_eq_some_iff.mp result
  obtain ⟨finished, shared⟩ := Prod.mk.inj same
  have coherent : Coherent .inMemory .default .empty := by
    intro e member
    cases member
  have stale := claim _ _ _ _ P _ coherent ran (by decide +kernel) (List.all_eq_true.mp finished)
  rw [shared] at stale
  have answer := stale seatLeftAtSix (by simp) seatAtSix rfl (by decide +kernel)
  exact absurd answer (by decide +kernel)

/-- A check of `StoresInTime` that can be run: nothing has changed since the
query fetched. -/
def storesAtOnce (P : Pool api Request World Response) : Event Request Choice String → Bool
  | .arrive r => r.bookings
  | .resume i _ =>
    match P.procs[i]? with
    | none => true
    | some proc =>
      match proc.prog.next? with
      | some (.redis (.set _ _ _)) => proc.history.all fun
          | (.db _, s) => s.tables.reservations = P.shared.tables.reservations
          | (.redis _, _) => true
      | _ => true
  | .env _ => true

theorem storesInTime_of_storesAtOnce (db : QueryEngine) (P : Pool api Request World Response)
    (e : Event Request Choice String) (check : storesAtOnce P e = true) : StoresInTime db P e := by
  cases e with
  | arrive r => exact check
  | env key => trivial
  | resume i c =>
    intro proc key value ttl found sets
    simp only [storesAtOnce, found, sets, List.all_eq_true] at check
    refine .inl ?_
    intro call s member
    simpa using check _ member

/-- A query in flight with a reservation fetches and stores after its scans. -/
theorem coherent_when_quiet_late_query :
    ∃ events P, (server .inMemory .default 0).run events ⟨.empty, []⟩ = some P ∧
      P.shared = ⟨oneFull, ⟨[noSeatAtSix], 1⟩⟩ ∧ Coherent .inMemory .default P.shared := by
  let events : List (Event Request Choice String) :=
    [.arrive (.query seatAtSix),
      .arrive (.mutation (.createReservation ⟨"Ada", "2025-03-10", "18:00", 10⟩)),
      .resume 0 .reply, .resume 1 .reply, .resume 1 .reply, .resume 1 .reply, .resume 1 .reply,
      .resume 1 (.batch true []), .resume 1 (.batch true []), .resume 0 .reply, .resume 0 .reply]
  have result : (((server .inMemory .default 0).checkedRun storesAtOnce events ⟨.empty, []⟩).map
      fun P => (P.procs.all fun proc => proc.prog.finished, P.shared)) =
        some (true, ⟨oneFull, ⟨[noSeatAtSix], 1⟩⟩) := by
    decide +kernel
  obtain ⟨P, ran, same⟩ := Option.map_eq_some_iff.mp result
  obtain ⟨finished, shared⟩ := Prod.mk.inj same
  obtain ⟨ran, inTime⟩ := Server.of_checkedRun (storesInTime_of_storesAtOnce .inMemory) ran
  have coherent : Coherent .inMemory .default .empty := by
    intro e member
    cases member
  exact ⟨events, P, ran, shared, coherent_when_quiet coherent ran inTime
    (List.all_eq_true.mp finished)⟩

end RestaurantAssistant
