import RestaurantAssistant.Async.Contract
import RestaurantAssistant.Provenance

/-!
# What the outcomes mean

A client sees an answer or an exception.  In every interleaving, with any calls rejected, each
outcome is accounted for by what its own request has seen (`outcomes_accounted`): a booking
by room at one look and a row saved later, a suggestion and a refusal by no room at that look,
a missing reservation by a look that did not find it.  "Failed to …" means that the last call
was rejected, with two exceptions: cancelling what is not there, and updating a column to
`null`.
-/

namespace RestaurantAssistant

open Awaiting Js redisService

/-! ## Calls that may be rejected -/

/-- The calls, where those that `fails` admits may be rejected without effect. -/
def faulty (db : QueryEngine) (fails : Call → Bool) : Interp api World (Option Choice) :=
  (interp db).failing fails .queryFailed

def faultyServer (db : QueryEngine) (cfg : Config) (rounds : Nat) (fails : Call → Bool) :
    Server api Request World (Option Choice) String Response where
  interp := faulty db fails
  handle := Request.handle cfg rounds
  env := (server db cfg rounds).env

/-- The last call may have been rejected. -/
def LastFails (fails : Call → Bool) (h : History api World) : Prop :=
  ∃ call s earlier, h = (call, s) :: earlier ∧ fails call = true

section Calls

variable {db : QueryEngine} {fails : Call → Bool} {h : History api World}

/-- A call is answered by the tables, or rejected. -/
def DbEnds (db : QueryEngine) (fails : Call → Bool) (call : DbCall) (h h' : History api World)
    (out : Except Exn call.Reply) : Prop :=
  ∃ s, h' = (.db call, s) :: h ∧
    (out = (s.tables.answer db call).1 ∨ out = .error .queryFailed ∧ LastFails fails h')

theorem ends_db (call : DbCall) : (Async.call (σ := api) (.db call)).Ends (faulty db fails)
    (DbEnds db fails call h) h := by
  apply Async.Ends.failing
  · intro c s r s' answered
    obtain ⟨-, rfl, -⟩ := interp_db.mp answered
    exact .ofExcept ⟨s, rfl, .inl rfl⟩
  · intro s may
    exact ⟨s, rfl, .inr ⟨rfl, _, _, _, rfl, may⟩⟩

theorem DbEnds.of_ok {call : DbCall} {h' : History api World} {a : call.Reply}
    (ends : DbEnds db fails call h h' (.ok a)) :
    ∃ s, h' = (.db call, s) :: h ∧ (s.tables.answer db call).1 = .ok a := by
  obtain ⟨s, made, answer | ⟨impossible, -⟩⟩ := ends
  · exact ⟨s, made, answer.symm⟩
  · cases impossible

/-- An exception comes from the tables, or the call was rejected. -/
theorem DbEnds.of_error {call : DbCall} {h' : History api World} {e : Exn}
    (ends : DbEnds db fails call h h' (.error e)) :
    (∃ s, h' = (.db call, s) :: h ∧ (s.tables.answer db call).1 = .error e) ∨
      e = .queryFailed ∧ LastFails fails h' := by
  obtain ⟨s, made, answer | ⟨same, failed⟩⟩ := ends
  · exact .inl ⟨s, made, answer.symm⟩
  · cases same
    exact .inr ⟨rfl, failed⟩

theorem ends_get (key : String) : (get key).Ends (faulty db fails) (fun h' out =>
    ∃ s, h' = (.redis (.get key), s) :: h ∧
      (out = .ok (s.redis.get key) ∨ out = .error .queryFailed ∧ LastFails fails h')) h := by
  apply Async.Ends.failing
  · intro c s r s' answered
    obtain ⟨-, rfl, -⟩ := interp_get.mp answered
    exact ⟨s, rfl, .inl rfl⟩
  · intro s may
    exact ⟨s, rfl, .inr ⟨rfl, _, _, _, rfl, may⟩⟩

/-- A Redis command is carried out, or rejected. -/
def RedisEnds {α : Type} (fails : Call → Bool) (h h' : History api World) (out : Except Exn α) :
    Prop :=
  h <:+ h' ∧ ((∃ a, out = .ok a) ∨ out = .error .queryFailed ∧ LastFails fails h')

theorem ends_redis (call : RedisCall QueryOutput) :
    (Async.call (σ := api) (.redis call)).Ends (faulty db fails) (RedisEnds fails h) h := by
  apply Async.Ends.failing
  · intro c s r s' answered
    have carried : (s.redis.answer c call).map
        (fun done => (.ok done.1, { s with redis := done.2 })) = some (r, s') := by
      cases c <;> exact answered
    obtain ⟨⟨reply, redis⟩, -, same⟩ := Option.map_eq_some_iff.mp carried
    cases same
    exact ⟨List.suffix_cons _ _, .inl ⟨reply, rfl⟩⟩
  · intro s may
    exact ⟨List.suffix_cons _ _, .inr ⟨rfl, _, _, _, rfl, may⟩⟩

/-! ## Clearing the cache -/

theorem RedisEnds.of_error {α : Type} {h' : History api World} {e : Exn}
    (ends : RedisEnds fails h h' (.error e : Except Exn α)) :
    e = .queryFailed ∧ LastFails fails h' := by
  obtain ⟨-, ⟨a, impossible⟩ | ⟨same, failed⟩⟩ := ends
  · cases impossible
  · cases same
    exact ⟨rfl, failed⟩

theorem RedisEnds.error {α β : Type} {h' : History api World} {e : Exn}
    (ends : RedisEnds fails h h' (.error e : Except Exn α)) :
    RedisEnds fails h h' (.error e : Except Exn β) := by
  obtain ⟨rfl, failed⟩ := ends.of_error
  exact ⟨ends.1, .inr ⟨rfl, failed⟩⟩

theorem ends_scanTurn {pattern : String} {cursor : Cursor} {again : Cursor → Async api Unit}
    (rest : ∀ next h', h <:+ h' → (again next).Ends (faulty db fails) (RedisEnds fails h) h') :
    (scanTurn pattern cursor again).Ends (faulty db fails) (RedisEnds fails h) h := by
  unfold scanTurn
  refine (ends_redis (.scan cursor pattern 100)).bind (fun h₁ batch scanned => ?_)
    fun _ _ thrown => thrown.error
  obtain ⟨next, keys⟩ := batch
  have goesOn : ∀ h₂, h <:+ h₂ → (if next = none then pure () else again next : Async api Unit).Ends
      (faulty db fails) (RedisEnds fails h) h₂ := by
    intro h₂ later
    split
    · exact ⟨later, .inl ⟨(), rfl⟩⟩
    · exact rest next h₂ later
  dsimp only
  split
  · refine (ends_redis (.del keys)).bind (fun h₂ _ deleted => ?_) fun h₂ e thrown => ?_
    · exact goesOn h₂ (scanned.1.trans deleted.1)
    · exact ⟨scanned.1.trans thrown.1, thrown.error.2⟩
  · exact goesOn h₁ scanned.1

theorem ends_scanFrom {pattern : String} {rounds : Nat} {cursor : Cursor} :
    (scanFrom pattern rounds cursor).Ends (faulty db fails) (RedisEnds fails h) h := by
  induction rounds generalizing cursor h with
  | zero => exact ends_scanTurn fun _ _ _ => trivial
  | succ rounds ih =>
    refine ends_scanTurn fun next h' later => ih.mono fun h'' out ends => ?_
    exact ⟨later.trans ends.1, ends.2⟩

theorem ends_clear {rounds : Nat} :
    (clearReservationCache rounds).Ends (faulty db fails) (RedisEnds fails h) h := by
  unfold clearReservationCache scanAndDelete
  refine ends_scanFrom.bind (fun h' _ first => ends_scanFrom.mono fun h'' out second => ?_)
    fun _ _ thrown => thrown.error
  exact ⟨first.1.trans second.1, second.2⟩

end Calls

/-! ## The contracts -/

/-- What the search for other slots finds beside the bookings in the tables. -/
def nearestSlots (cfg : Config) (T : Tables) (data : CreateReservationInput) :
    Option (List JsNumber) :=
  findNearestAvailableSlots (T.bookingsOn data.date) (convertToMinutes data.time / cfg.slotDuration)
    cfg.slotDuration cfg.totalSeats (data.guests : JsNumber) cfg.reservationDuration

/-- The outcomes of `createReservation`: booked, with room at the look; other times, without
it; a refusal, without any other times; or the last call was rejected. -/
inductive CreateEnds (cfg : Config) (fails : Call → Bool) (data : CreateReservationInput)
    (h : History api World) : Except Exn CreateReservationOutput → Prop
  | booked {s s' : World} {customer : Customer} :
      (.db (.findReservations data.date), s) ∈ h →
      hasRoom cfg s.tables data.date data.time data.guests = true →
      (.db (.saveReservation ⟨none, some data.date, some data.time,
        some data.guests, customer⟩), s')
        ∈ h → customer.name = data.customerName →
      CreateEnds cfg fails data h (.ok ⟨"Reservation successfully created!", [],
        some ⟨⟨data.time, data.guests⟩, s'.tables.nextReservation, data.date, customer⟩⟩)
  | suggested {s : World} {slots : List JsNumber} :
      (.db (.findReservations data.date), s) ∈ h →
      hasRoom cfg s.tables data.date data.time data.guests = false →
      nearestSlots cfg s.tables data = some slots → slots ≠ [] →
      CreateEnds cfg fails data h
        (.ok ⟨"Requested time is unavailable. Suggested available times:",
          slots.map fun slot => convertToTime (slot * cfg.slotDuration), none⟩)
  | refused {s : World} :
      (.db (.findReservations data.date), s) ∈ h →
      hasRoom cfg s.tables data.date data.time data.guests = false →
      nearestSlots cfg s.tables data = some [] →
      CreateEnds cfg fails data h (.error (.badRequest ("No availability for " ++
        String.ofList (JsNumber.integerText data.guests) ++ " guests on " ++ data.date)))
  | failed : LastFails fails h →
      CreateEnds cfg fails data h (.error (.internalServerError "Failed to create reservation"))

/-- The outcomes of `cancelReservation`: the row was there, or it was not, or the last call was
rejected; the last two look the same. -/
inductive CancelEnds (fails : Call → Bool) (id : Int) (h : History api World) :
    Except Exn Bool → Prop
  | cancelled {s : World} : (.db (.deleteReservation id), s) ∈ h →
      (s.tables.find id).isSome = true → CancelEnds fails id h (.ok true)
  | missing {s : World} : h = [(.db (.deleteReservation id), s)] → s.tables.find id = none →
      CancelEnds fails id h (.error (.internalServerError "Failed to cancel reservation"))
  | failed : LastFails fails h →
      CancelEnds fails id h (.error (.internalServerError "Failed to cancel reservation"))

/-- The outcomes of `updateReservation`: the row as it was found, with the given fields; no row
found; a column that would be `null`; or the last call was rejected. -/
inductive UpdateEnds (fails : Call → Bool) (data : UpdateReservationInput)
    (h : History api World) : Except Exn Reservation → Prop
  | updated {s : World} {old new : Reservation} : (.db (.findReservation data.id), s) ∈ h →
      s.tables.find data.id = some old → old.updated data = some new →
      UpdateEnds fails data h (.ok new)
  | missing {s : World} : h = [(.db (.findReservation data.id), s)] →
      s.tables.find data.id = none →
      UpdateEnds fails data h (.error (.notFound ("Reservation with ID " ++
        String.ofList (JsNumber.integerText data.id) ++ " not found")))
  | null {s : World} {old : Reservation} : (.db (.findReservation data.id), s) ∈ h →
      s.tables.find data.id = some old → old.updated data = none →
      UpdateEnds fails data h (.error (.internalServerError "Failed to update reservation"))
  | failed : LastFails fails h →
      UpdateEnds fails data h (.error (.internalServerError "Failed to update reservation"))

/-- The outcomes of a query: what was under its key, what it has computed from what it has
fetched, or the last call was rejected. -/
inductive QueryEndsWith (db : QueryEngine) (cfg : Config) (fails : Call → Bool) (q : Query)
    (h : History api World) : Except Exn QueryOutput → Prop
  | cached {s : World} {value : QueryOutput} : (.redis (.get q.key), s) ∈ h →
      s.redis.get q.key = some value → QueryEndsWith db cfg fails q h (.ok value)
  | computed {value : QueryOutput} : Computed db cfg q h value →
      QueryEndsWith db cfg fails q h (.ok value)
  | failed : LastFails fails h → QueryEndsWith db cfg fails q h (.error q.failure)

/-- What a request may end with. -/
def AccountedFor (db : QueryEngine) (cfg : Config) (fails : Call → Bool) (h : History api World)
    (out : Except Exn Response) : Request → Prop
  | .query q => ∃ o, out = o.map .queried ∧ QueryEndsWith db cfg fails q h o
  | .mutation (.createReservation data) =>
    ∃ o, out = o.map .created ∧ CreateEnds cfg fails data h o
  | .mutation (.cancelReservation id) => ∃ o, out = o.map .cancelled ∧ CancelEnds fails id h o
  | .mutation (.updateReservation data) => ∃ o, out = o.map .updated ∧ UpdateEnds fails data h o

/-! ## The programs keep their contracts -/

section Programs

variable {db : QueryEngine} {cfg : Config} {rounds : Nat} {fails : Call → Bool}
  {h : History api World}

theorem ends_findOrCreateCustomer (name : String) :
    (findOrCreateCustomer name).Ends (faulty db fails) (fun h' out =>
      (∃ customer : Customer, out = .ok customer ∧ customer.name = name) ∨
        out = .error .queryFailed ∧ LastFails fails h') h := by
  unfold findOrCreateCustomer
  refine (ends_db (.findCustomer name)).bind (fun h₁ found looked => ?_) fun h₁ e thrown => ?_
  · obtain ⟨s, -, answer⟩ := looked.of_ok
    cases found with
    | some customer =>
      have named := List.find?_some (Except.ok.inj answer)
      exact .inl ⟨customer, rfl, of_decide_eq_true named⟩
    | none =>
      refine (ends_db (.saveCustomer name)).mono fun h₂ out saved => ?_
      obtain ⟨s', -, answer | failed⟩ := saved
      · exact .inl ⟨_, answer, rfl⟩
      · exact .inr failed
  · obtain ⟨s, -, impossible⟩ | ⟨rfl, failed⟩ := thrown.of_error
    · cases impossible
    · exact .inr ⟨rfl, failed⟩

/-- What `createFor` ends with, before the `catch`. -/
def CreateForEnds (cfg : Config) (fails : Call → Bool) (data : CreateReservationInput)
    (h : History api World) (out : Except Exn CreateReservationOutput) : Prop :=
  CreateEnds cfg fails data h out ∨ out = .error .queryFailed ∧ LastFails fails h

theorem ends_createFor {data : CreateReservationInput} {customer : Customer}
    (named : customer.name = data.customerName) :
    (createFor cfg rounds data customer).Ends (faulty db fails)
      (CreateForEnds cfg fails data) h := by
  unfold createFor
  refine (ends_db (.findReservations data.date)).bind (fun h₁ rows looked => ?_)
    fun h₁ e thrown => ?_
  · obtain ⟨s, rfl, answer⟩ := looked.of_ok
    cases answer
    change Async.Ends _ _ (if _ then _ else _ : Async api _) _
    split
    · rename_i room
      refine (ends_db (.saveReservation _)).bind (fun h₂ row saved => ?_) fun h₂ e thrown => ?_
      · obtain ⟨s', rfl, answer⟩ := saved.of_ok
        cases answer
        refine ends_clear.bind (fun h₃ _ cleared => ?_) fun h₃ e thrown => ?_
        · have saved := cleared.1.subset List.mem_cons_self
          have looked := cleared.1.subset (List.mem_cons_of_mem _ List.mem_cons_self)
          exact .inl (.booked looked room saved named)
        · obtain ⟨rfl, failed⟩ := thrown.of_error
          exact .inr ⟨rfl, failed⟩
      · obtain ⟨s', -, impossible⟩ | ⟨rfl, failed⟩ := thrown.of_error
        · cases impossible
        · exact .inr ⟨rfl, failed⟩
    · rename_i full
      have none : hasRoom cfg s.tables data.date data.time data.guests = false :=
        Bool.eq_false_iff.mpr full
      generalize search : findNearestAvailableSlots _ _ _ _ _ _ = nearest
      rcases nearest with _ | _ | ⟨slot, slots⟩
      · trivial
      · exact .inl (.refused List.mem_cons_self none search)
      · exact .inl (.suggested List.mem_cons_self none search (List.cons_ne_nil _ _))
  · obtain ⟨s, -, impossible⟩ | ⟨rfl, failed⟩ := thrown.of_error
    · cases impossible
    · exact .inr ⟨rfl, failed⟩

theorem ends_createReservation (data : CreateReservationInput) :
    (createReservation cfg rounds data).Ends (faulty db fails) (CreateEnds cfg fails data) h := by
  have body : (findOrCreateCustomer data.customerName >>= createFor cfg rounds data).Ends
      (faulty db fails) (CreateForEnds cfg fails data) h := by
    refine (ends_findOrCreateCustomer data.customerName).bind (fun h₁ customer found => ?_)
      fun h₁ e thrown => ?_
    · obtain ⟨customer', same, named⟩ | ⟨impossible, -⟩ := found
      · cases same
        exact ends_createFor named
      · cases impossible
    · obtain ⟨_, impossible, -⟩ | ⟨same, failed⟩ := thrown
      · cases impossible
      · cases same
        exact .inr ⟨rfl, failed⟩
  refine body.tryCatch (fun h' out ended => ?_) fun h' e thrown => ?_
  · obtain ends | ⟨impossible, -⟩ := ended
    · exact ends
    · cases impossible
  · obtain ends | ⟨same, failed⟩ := thrown
    · cases ends with
      | refused looked none search => exact .refused looked none search
      | failed failed => exact .failed failed
    · cases same
      exact .failed failed

theorem affected_eq_zero_iff {T : Tables} {id : Int} :
    T.reservations.countP (fun r => r.id = id) = 0 ↔ T.find id = none := by
  unfold Tables.find
  rw [List.countP_eq_zero, List.find?_eq_none]

/-- What the body of `cancelReservation` ends with, before the `catch`. -/
def CancelBodyEnds (fails : Call → Bool) (id : Int) (h : History api World) :
    Except Exn Bool → Prop
  | .ok done => CancelEnds fails id h (.ok done)
  | .error _ => LastFails fails h ∨
      ∃ s, h = [(.db (.deleteReservation id), s)] ∧ s.tables.find id = none

theorem ends_cancelReservation (id : Int) :
    (cancelReservation rounds id).Ends (faulty db fails) (CancelEnds fails id) [] := by
  unfold cancelReservation
  refine Async.Ends.tryCatch (R := CancelBodyEnds fails id) ?_ (fun _ _ ends => ends)
    fun h' e thrown => ?_
  · refine (ends_db (.deleteReservation id)).bind (fun h₁ affected deleted => ?_)
      fun h₁ e thrown => ?_
    · obtain ⟨s, rfl, answer⟩ := deleted.of_ok
      cases answer
      split
      · rename_i zero
        exact .inr ⟨s, rfl, affected_eq_zero_iff.mp zero⟩
      · rename_i some_
        refine ends_clear.bind (fun h₂ _ cleared => ?_) fun h₂ e thrown => .inl thrown.of_error.2
        refine .cancelled (cleared.1.subset List.mem_cons_self) ?_
        rw [Option.isSome_iff_ne_none]
        intro absent
        exact some_ (affected_eq_zero_iff.mpr absent)
    · obtain ⟨s, -, impossible⟩ | ⟨-, failed⟩ := thrown.of_error
      · cases impossible
      · exact .inl failed
  · rcases thrown with failed | ⟨s, only, absent⟩
    · exact .failed failed
    · exact .missing only absent

/-- What the body of `updateReservation` ends with, before the `catch`. -/
def UpdateBodyEnds (fails : Call → Bool) (data : UpdateReservationInput) (h : History api World) :
    Except Exn Reservation → Prop
  | .error .queryFailed => LastFails fails h ∨ ∃ s old, (.db (.findReservation data.id), s) ∈ h ∧
      s.tables.find data.id = some old ∧ old.updated data = none
  | out => UpdateEnds fails data h out

theorem ends_updateReservation (data : UpdateReservationInput) :
    (updateReservation rounds data).Ends (faulty db fails) (UpdateEnds fails data) [] := by
  unfold updateReservation
  refine Async.Ends.tryCatch (R := UpdateBodyEnds fails data) ?_ (fun _ _ ends => ends)
    fun h' e thrown => ?_
  · refine (ends_db (.findReservation data.id)).bind (fun h₁ found looked => ?_)
      fun h₁ e thrown => ?_
    · obtain ⟨s, rfl, answer⟩ := looked.of_ok
      cases found with
      | none => exact UpdateEnds.missing rfl (Except.ok.inj answer)
      | some old =>
        refine ends_clear.bind (fun h₂ _ cleared => ?_) fun h₂ e thrown => ?_
        · have looked := cleared.1.subset List.mem_cons_self
          refine (ends_db (.saveReservation (assign old data))).mono fun h₃ out saved => ?_
          obtain ⟨s', rfl, answered | ⟨rfl, failed⟩⟩ := saved
          · rw [answer_save_assign] at answered
            have looked := List.mem_cons_of_mem
              ((.db (.saveReservation (assign old data)) : Call), s') looked
            cases stored : old.updated data with
            | some new =>
              rw [stored] at answered
              rw [answered]
              exact UpdateEnds.updated looked (Except.ok.inj answer) stored
            | none =>
              rw [stored] at answered
              rw [answered]
              exact .inr ⟨s, old, looked, Except.ok.inj answer, stored⟩
          · exact .inl failed
        · obtain ⟨rfl, failed⟩ := thrown.of_error
          exact .inl failed
    · obtain ⟨s, -, impossible⟩ | ⟨rfl, failed⟩ := thrown.of_error
      · cases impossible
      · exact .inl failed
  · cases e with
    | queryFailed =>
      rcases thrown with failed | ⟨s, old, looked, found, none⟩
      · exact .failed failed
      · exact .null looked found none
    | badRequest message =>
      have ends : UpdateEnds fails data h' (.error (.badRequest message)) := thrown
      cases ends
    | notFound message => exact thrown
    | internalServerError message =>
      have ends : UpdateEnds fails data h' (.error (.internalServerError message)) := thrown
      cases ends with
      | null looked found none => exact .null looked found none
      | failed failed => exact .failed failed

/-- What the body of a query ends with, before the `catch`. -/
def QueryBodyEnds (db : QueryEngine) (cfg : Config) (fails : Call → Bool) (q : Query)
    (h : History api World) : Except Exn QueryOutput → Prop
  | .ok value => QueryEndsWith db cfg fails q h (.ok value)
  | .error _ => LastFails fails h

/-- What is computed is stored and returned. -/
theorem ends_store {q : Query} {value : QueryOutput} {key : String}
    (computed : Computed db cfg q h value) :
    (set key value 300 >>= fun _ => pure value).Ends (faulty db fails)
      (QueryBodyEnds db cfg fails q) h := by
  refine Async.Ends.failing (fun c s r s' answered => ?_) fun s may => ⟨_, _, _, rfl, may⟩
  obtain ⟨-, rfl, -⟩ := interp_set.mp answered
  exact .computed (computed.cons _)

theorem ends_getReservations (filter : Arg ReservationFilterInput)
    (pagination : Arg PaginationInput) (sort : Arg SortInput) :
    (getReservations filter pagination sort).Ends (faulty db fails)
      (QueryEndsWith db cfg fails (.getReservations filter pagination sort)) h := by
  unfold getReservations
  refine Async.Ends.tryCatch
    (R := QueryBodyEnds db cfg fails (.getReservations filter pagination sort))
    ?_ (fun _ _ ends => ends) fun _ _ failed => .failed failed
  refine (ends_get _).bind (fun h₁ found looked => ?_) fun h₁ e thrown => ?_
  · obtain ⟨s, rfl, answer | ⟨impossible, -⟩⟩ := looked
    · cases found with
      | some value => exact .cached List.mem_cons_self (Except.ok.inj answer).symm
      | none =>
        refine (ends_db (.getMany _)).bind (fun h₂ items listed => ?_) fun h₂ e thrown => ?_
        · obtain ⟨s₁, rfl, answer⟩ := listed.of_ok
          cases answer
          refine (ends_db (.getCount _)).bind (fun h₃ total counted => ?_) fun h₃ e thrown => ?_
          · obtain ⟨s₂, rfl, answer⟩ := counted.of_ok
            cases answer
            refine ends_store ⟨s₁, s₂, ?_, rfl⟩
            exact (List.nil_sublist _).cons_cons _ |>.cons_cons _
          · obtain ⟨s₂, -, impossible⟩ | ⟨-, failed⟩ := thrown.of_error
            · cases impossible
            · exact failed
        · obtain ⟨s₁, -, impossible⟩ | ⟨-, failed⟩ := thrown.of_error
          · cases impossible
          · exact failed
    · cases impossible
  · obtain ⟨s, -, impossible | ⟨-, failed⟩⟩ := thrown
    · cases impossible
    · exact failed

theorem ends_checkAvailability (data : CheckAvailabilityInput) :
    (checkAvailability cfg data).Ends (faulty db fails)
      (QueryEndsWith db cfg fails (.checkAvailability data)) h := by
  unfold checkAvailability
  refine Async.Ends.tryCatch (R := QueryBodyEnds db cfg fails (.checkAvailability data))
    ?_ (fun _ _ ends => ends) fun _ _ failed => .failed failed
  refine (ends_get _).bind (fun h₁ found looked => ?_) fun h₁ e thrown => ?_
  · obtain ⟨s, rfl, answer | ⟨impossible, -⟩⟩ := looked
    · cases found with
      | some value => exact .cached List.mem_cons_self (Except.ok.inj answer).symm
      | none =>
        refine (ends_db (.findReservations data.date)).bind (fun h₂ rows fetched => ?_)
          fun h₂ e thrown => ?_
        · obtain ⟨s₁, rfl, answer⟩ := fetched.of_ok
          cases answer
          have answered : ∀ {out}, availabilityOf cfg (s₁.tables.bookingsOn data.date) data =
              some out → Computed db cfg (.checkAvailability data)
                ((.db (.findReservations data.date), s₁) ::
                  (.redis (.get (availabilityKey data)), s) :: h) (.availability out) := by
            intro out answer
            refine ⟨s₁, List.mem_cons_self, ?_⟩
            rw [fresh_availability, answer]
            rfl
          unfold availabilityOf Tables.bookingsOn at answered
          cases timed : data.time.text with
          | some time =>
            simp only [timed] at answered
            exact ends_store (answered rfl)
          | none =>
            cases ranged : data.timeRange with
            | undefined =>
              simp only [timed, ranged] at answered
              exact .computed (answered rfl)
            | null =>
              simp only [timed, ranged] at answered
              exact .computed (answered rfl)
            | given range =>
              simp only [timed, ranged] at answered
              dsimp only
              generalize findAvailableSlots _ _ _ _ _ _ _ = slots at answered ⊢
              cases slots with
              | none => trivial
              | some slots => exact ends_store (answered rfl)
        · obtain ⟨s₁, -, impossible⟩ | ⟨-, failed⟩ := thrown.of_error
          · cases impossible
          · exact failed
    · cases impossible
  · obtain ⟨s, -, impossible | ⟨-, failed⟩⟩ := thrown
    · cases impossible
    · exact failed

theorem ends_request (r : Request) : (r.handle cfg rounds).Ends (faulty db fails)
    (fun h out => AccountedFor db cfg fails h out r) [] := by
  rcases r with q | m
  · refine Async.Ends.map (Async.Ends.mono ?_ fun h out ends => ⟨out, rfl, ends⟩)
    cases q with
    | getReservations filter pagination sort => exact ends_getReservations filter pagination sort
    | checkAvailability data => exact ends_checkAvailability data
  · cases m with
    | createReservation data =>
      exact ((ends_createReservation data).mono fun h out ends => ⟨out, rfl, ends⟩).map
    | cancelReservation id =>
      exact ((ends_cancelReservation id).mono fun h out ends => ⟨out, rfl, ends⟩).map
    | updateReservation data =>
      exact ((ends_updateReservation data).mono fun h out ends => ⟨out, rfl, ends⟩).map

end Programs

/-- **Every outcome is accounted for**, in every interleaving and whichever of the calls that
may fail are rejected. -/
theorem outcomes_accounted (db : QueryEngine) (cfg : Config) (rounds : Nat) (fails : Call → Bool)
    {w : World} {es : List (Event Request (Option Choice) String)}
    {P : Pool api Request World Response} {proc : Proc api Request World Response}
    {out : Except Exn Response} (ran : (faultyServer db cfg rounds fails).run es ⟨w, []⟩ = some P)
    (member : proc ∈ P.procs) (ended : proc.prog.outcome? = some out) :
    AccountedFor db cfg fails proc.history out proc.request :=
  Server.run_ends (fun r h out => AccountedFor db cfg fails h out r) ends_request ran member ended

/-- Two cancellations of one reservation: the second one fails although no call is rejected. -/
def cancelledTwice : List (Event Request (Option Choice) String) :=
  let cancel : Request := .mutation (.cancelReservation 1)
  [.arrive cancel, .arrive cancel, .resume 1 (some .reply), .resume 0 (some .reply),
    .resume 1 (some (.batch true [])), .resume 1 (some (.batch true []))]

/-- The tables with one reservation. -/
def oneBooked : World :=
  ⟨⟨[⟨⟨"18:00", 4⟩, 1, "2025-03-10", ⟨1, "Ada"⟩⟩], [⟨1, "Ada"⟩], 2, 2⟩, .empty⟩

theorem outcomes_accounted_cancelled_twice :
    ∃ P, (faultyServer .inMemory .default 0 fun _ => false).run cancelledTwice ⟨oneBooked, []⟩ =
        some P ∧
      P.procs.map (fun proc => proc.prog.outcome?) =
        [some (.error (.internalServerError "Failed to cancel reservation")),
          some (.ok (.cancelled true))] ∧
      ∀ proc ∈ P.procs, ∀ out, proc.prog.outcome? = some out →
        AccountedFor .inMemory .default (fun _ => false) proc.history out proc.request := by
  have checked : (((faultyServer .inMemory .default 0 fun _ => false).run cancelledTwice
      ⟨oneBooked, []⟩).any fun P => decide (P.procs.map (fun proc => proc.prog.outcome?) =
        [some (.error (.internalServerError "Failed to cancel reservation")),
          some (.ok (.cancelled true))])) = true := by
    decide +kernel
  obtain ⟨P, ran, seen⟩ := (Option.any_eq_true _ _).mp checked
  exact ⟨P, ran, of_decide_eq_true seen, fun proc member out ended =>
    outcomes_accounted .inMemory .default 0 _ ran member ended⟩

end RestaurantAssistant
