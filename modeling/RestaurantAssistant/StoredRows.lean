import RestaurantAssistant.Interleaving

/-!
# What the tables hold

Over every interleaving of mutations with accepted inputs, every stored
reservation has a time of day, a date, at least one guest and a stored customer
(`stored_rows_are_well_formed`).

Customers are looked up and, if missing, created in two calls: their names stay
distinct if no name is looked up while another request is about to create it
(`names_stay_distinct`).
-/

namespace RestaurantAssistant

open Awaiting Js

open redisService

variable {db : QueryEngine} {cfg : Config} {rounds : Nat} {P P' : Pool api Request World Response}
  {isDateString : String → Bool}

/-! ## Customers -/

/-- The customers after a call of a history. -/
def customersAfter (db : QueryEngine) (step : Call × World) : List Customer :=
  (step.2.tables.answerCacheless db step.1).2.customers

/-- Only `customerRepo.save` touches the customers. -/
theorem answer_customers (T : Tables) (call : DbCall) :
    (T.answer db call).2.customers = T.customers ∨
      ∃ name, call = .saveCustomer name ∧ (T.answer db call).2 = T.addCustomer name := by
  cases call with
  | saveCustomer name => exact .inr ⟨name, rfl, rfl⟩
  | saveReservation draft =>
    refine .inl ?_
    obtain ⟨id, date, time, guests, customer⟩ := draft
    cases id <;> cases date <;> cases time <;> cases guests <;> rfl
  | _ => exact .inl rfl

theorem tables_of_answer {call : Call} {c : Choice} {r : Except Exn call.Reply} {w w' : World}
    (answered : (interp db).answer c call w = some (r, w')) :
    w'.tables = (w.tables.answerCacheless db call).2 := by
  rcases call with call | call
  · obtain ⟨-, -, rfl⟩ := interp_db.mp answered
    rfl
  · cases call with
    | get key =>
      obtain ⟨-, -, rfl⟩ := interp_get.mp answered
      rfl
    | set key value ttl =>
      obtain ⟨-, -, rfl⟩ := interp_set.mp answered
      rfl
    | del keys =>
      obtain ⟨-, -, rfl⟩ := interp_del.mp answered
      rfl
    | scan cursor pattern count =>
      obtain ⟨-, -, -, rfl, -⟩ := interp_scan answered
      rfl

theorem customers_of_answer {call : Call} {c : Choice} {r : Except Exn call.Reply} {w w' : World}
    (answered : (interp db).answer c call w = some (r, w')) :
    w'.tables.customers = w.tables.customers ∨
      ∃ name, call = .db (.saveCustomer name) ∧ w'.tables = w.tables.addCustomer name := by
  have after := tables_of_answer answered
  rcases call with call | call
  · rw [after]
    rcases answer_customers w.tables call with same | ⟨name, rfl, added⟩
    · exact .inl same
    · exact .inr ⟨name, rfl, added⟩
  · refine .inl ?_
    rw [after]
    cases call <;> rfl

/-- No call removes a customer. -/
theorem mem_customers_of_answer {call : Call} {c : Choice} {r : Except Exn call.Reply}
    {w w' : World} {customer : Customer}
    (answered : (interp db).answer c call w = some (r, w'))
    (member : customer ∈ w.tables.customers) : customer ∈ w'.tables.customers := by
  rcases customers_of_answer answered with same | ⟨name, -, added⟩
  · rw [same]
    exact member
  · rw [added]
    exact List.mem_append_left _ member

/-- A new reservation is saved for a customer that was found or created, and a
customer is created directly after it was not found. -/
structure HandlesCustomer (db : QueryEngine) (h : History api World) (p : Async api Response) :
    Prop where
  known : ∀ draft, p.next? = some (.db (.saveReservation draft)) →
    ∃ step ∈ h, draft.customer ∈ customersAfter db step
  missed : ∀ name, p.next? = some (.db (.saveCustomer name)) →
    ∃ s h', h = (.db (.findCustomer name), s) :: h' ∧
      s.tables.customers.find? (fun c => c.name = name) = none

/-- Neither call is next. -/
theorem HandlesCustomer.of_other {h : History api World} {p : Async api Response}
    (noSave : ∀ draft, p.next? ≠ some (.db (.saveReservation draft)))
    (noCustomer : ∀ name, p.next? ≠ some (.db (.saveCustomer name))) : HandlesCustomer db h p :=
  ⟨fun draft next => absurd next (noSave draft), fun name next => absurd next (noCustomer name)⟩

theorem createFor_handlesCustomer {data : CreateReservationInput} {customer : Customer}
    {h : History api World} (known : ∃ step ∈ h, customer ∈ customersAfter db step) :
    ((createFor cfg rounds data customer).tryCatch createFailed >>= fun x =>
      .pure (.created x)).Always (interp db) (HandlesCustomer db) h := by
  unfold createFor
  refine always_db (.of_other (fun _ next => by cases next) fun _ next => by cases next) fun s => ?_
  simp only [Tables.answer, ofExcept_ok]
  change Async.Always _ _ (((if _ then _ else _ : Async api _).tryCatch createFailed) >>= _) _
  split
  · refine always_db ⟨?_, fun _ next => by cases next⟩ fun s' => ?_
    · intro draft next
      cases next
      obtain ⟨step, member, found⟩ := known
      exact ⟨step, List.mem_cons_of_mem _ member, found⟩
    · refine clear_then_always ?_ ?_
      · intro h' q clearing _
        refine .of_other ?_ ?_
        · intro draft next
          exact absurd (clearing.next _ next) (by simp [Call.clears])
        · intro name next
          exact absurd (clearing.next _ next) (by simp [Call.clears])
      · intro l _ _
        exact .of_other (fun _ next => by cases next) fun _ next => by cases next
  · generalize findNearestAvailableSlots _ _ _ _ _ _ = nearest
    rcases nearest with _ | _ | _ <;>
    exact .of_other (fun _ next => by cases next) fun _ next => by cases next

theorem create_handlesCustomer {data : CreateReservationInput} :
    ((Mutation.createReservation data).handle cfg rounds).Always (interp db)
      (HandlesCustomer db) [] := by
  refine always_db (.of_other (fun _ next => by cases next) fun _ next => by cases next) fun s => ?_
  simp only [Tables.answer]
  cases found : s.tables.customers.find? fun c => c.name = data.customerName with
  | some customer =>
    refine createFor_handlesCustomer ⟨_, List.mem_cons_self, ?_⟩
    exact List.mem_of_find?_eq_some found
  | none =>
    refine always_db ⟨fun _ next => (by cases next), ?_⟩ fun s' => ?_
    · intro name next
      cases next
      exact ⟨s, [], rfl, found⟩
    · refine createFor_handlesCustomer ⟨_, List.mem_cons_self, ?_⟩
      exact List.mem_append_right _ List.mem_cons_self

/-! ## Reservations -/

/-- A reservation as it may be stored. -/
structure Stored (isDateString : String → Bool) (T : Tables) (r : Reservation) : Prop where
  time : isValidTimeString r.time = true
  guests : 1 ≤ r.guests
  date : isDateString r.date = true
  customer : r.customer ∈ T.customers

def AllStored (isDateString : String → Bool) (T : Tables) : Prop :=
  ∀ r ∈ T.reservations, Stored isDateString T r

theorem CreateReservationInput.date_of_accepted {data : CreateReservationInput}
    (accepted : data.accepted isDateString = true) : isDateString data.date = true := by
  unfold CreateReservationInput.accepted at accepted
  simp only [Bool.and_eq_true] at accepted
  exact accepted.1.1.2.1

theorem updated_date {old new : Reservation} {data : UpdateReservationInput}
    (accepted : data.accepted isDateString = true) (saved : old.updated data = some new)
    (before : isDateString old.date = true) :
    isDateString new.date = true ∧ new.customer = old.customer := by
  simp only [UpdateReservationInput.accepted, Bool.and_eq_true] at accepted
  unfold Reservation.updated at saved
  simp only [Option.bind_eq_bind, Option.bind_eq_some_iff, Option.some.injEq] at saved
  obtain ⟨newDate, dateSaved, newTime, -, newGuests, -, rfl⟩ := saved
  refine ⟨Arg.of_assign (P := fun d => isDateString d = true) dateSaved
    accepted.1.1.2 before ?_, rfl⟩
  intro d ok
  exact (Bool.and_eq_true_iff.mp ok).1

/-- What has been seen is still true: the rows were well formed when a call was
made, and the customers it left are stored. -/
def Seen (db : QueryEngine) (isDateString : String → Bool) (T : Tables) (step : Call × World) :
    Prop :=
  AllStored isDateString step.2.tables ∧ ∀ c ∈ customersAfter db step, c ∈ T.customers

/-- A mutation with an accepted input writes as it may, for a customer it knows. -/
def Mutates (db : QueryEngine) (isDateString : String → Bool) (r : Request)
    (h : History api World) (p : Async api Response) : Prop :=
  ∃ m, r = .mutation m ∧ r.mutates isDateString = true ∧ WritesAsMay m h p ∧
    ∀ data, m = .createReservation data → HandlesCustomer db h p

theorem mutates_of_arrival {r : Request} (accepted : r.mutates isDateString = true) :
    (r.handle cfg rounds).Always (interp db) (Mutates db isDateString r) [] := by
  rcases r with q | m
  · cases accepted
  · have writes : (m.handle cfg rounds).Always (interp db) (WritesAsMay m) [] :=
      mutation_writesAsMay cfg m
    cases m with
    | createReservation data =>
      exact (writes.and create_handlesCustomer).mono fun h p both =>
        ⟨_, rfl, accepted, both.1, fun _ _ => both.2⟩
    | cancelReservation id =>
      exact writes.mono fun h p may => ⟨_, rfl, accepted, may, fun _ same => nomatch same⟩
    | updateReservation data =>
      exact writes.mono fun h p may => ⟨_, rfl, accepted, may, fun _ same => nomatch same⟩

/-- **The step.**  The rows stay well formed over one call of a mutation. -/
theorem allStored_step {r : Request} {h : History api World} {call : Call} {c : Choice}
    {k : Except Exn call.Reply → Async api Response} {reply : Except Exn call.Reply}
    {w w' : World} (mutates : Mutates db isDateString r h (.await call k))
    (seen : ∀ step ∈ h, Seen db isDateString w.tables step)
    (answered : (interp db).answer c call w = some (reply, w'))
    (held : AllStored isDateString w.tables) : AllStored isDateString w'.tables := by
  have stays : ∀ {r}, Stored isDateString w.tables r → Stored isDateString w'.tables r := by
    intro r stored
    exact { stored with customer := mem_customers_of_answer answered stored.customer }
  have unchanged : w'.tables.reservations = w.tables.reservations →
      AllStored isDateString w'.tables := by
    intro same r member
    rw [same] at member
    exact stays (held r member)
  obtain ⟨m, rfl, accepted, writes, customer⟩ := mutates
  rcases step_of_writesAsMay writes answered with same | may
  · exact unchanged same
  cases m with
  | createReservation data =>
    obtain ⟨customer', rfl⟩ := may
    obtain ⟨step, member, found⟩ := (customer data rfl).known _ rfl
    have valid := CreateReservationInput.valid_of_accepted accepted
    have new : Stored isDateString w.tables
        ⟨⟨data.time, data.guests⟩, w.tables.nextReservation, data.date, customer'⟩ :=
      ⟨valid.1, valid.2, CreateReservationInput.date_of_accepted accepted,
        (seen step member).2 _ found⟩
    obtain ⟨-, -, rfl⟩ := interp_db.mp answered
    intro r stored
    rcases List.mem_append.mp stored with was | now
    · exact stays (held r was)
    · cases List.mem_singleton.mp now
      exact stays new
  | cancelReservation id =>
    cases may
    obtain ⟨-, -, rfl⟩ := interp_db.mp answered
    intro r stored
    exact stays (held r (List.mem_filter.mp stored).1)
  | updateReservation data =>
    obtain ⟨s, old, member, found, rfl⟩ := may
    have before := (seen _ member).1 old (List.mem_of_find?_eq_some found)
    have known := (seen _ member).2 _ before.customer
    obtain ⟨-, -, rfl⟩ := interp_db.mp answered
    rw [answer_save_assign] at unchanged stays ⊢
    cases saved : old.updated data with
    | none =>
      rw [saved] at unchanged
      exact unchanged rfl
    | some new =>
      have valid := updated_valid accepted saved ⟨before.time, before.guests⟩
      have dated := updated_date accepted saved before.date
      rw [saved] at stays
      intro r stored
      rcases Tables.mem_put stored with was | rfl
      · exact stays (held r was)
      · refine stays ⟨valid.1, valid.2, dated.1, ?_⟩
        rw [dated.2]
        exact known

/-- The rows are well formed, and what each request has seen is still true. -/
def RowsStored (db : QueryEngine) (isDateString : String → Bool)
    (P : Pool api Request World Response) : Prop :=
  AllStored isDateString P.shared.tables ∧
    ∀ proc ∈ P.procs, ∀ step ∈ proc.history, Seen db isDateString P.shared.tables step

theorem rowsStored_step {e : Event Request Choice String}
    (mutates : P.Always (Mutates db isDateString) (interp db))
    (held : RowsStored db isDateString P) (fired : (server db cfg rounds).fire e P = some P') :
    RowsStored db isDateString P' := by
  obtain ⟨stored, seen⟩ := held
  rcases Server.fire_cases fired with ⟨r, rfl, rfl⟩ |
    ⟨i, c, proc, call, k, r, w', rfl, found, suspended, answered, rfl⟩ | ⟨key, rfl, rfl⟩
  · refine ⟨stored, ?_⟩
    intro proc member step made
    rcases List.mem_append.mp member with member | member
    · exact seen proc member step made
    · cases List.mem_singleton.mp member
      cases made
  · have inPool := List.mem_of_getElem? found
    have stands := (mutates proc inPool).here
    rw [suspended] at stands
    refine ⟨allStored_step stands (seen proc inPool) answered stored, ?_⟩
    have still : ∀ {step}, Seen db isDateString P.shared.tables step →
        Seen db isDateString w'.tables step := by
      intro step was
      exact ⟨was.1, fun c known => mem_customers_of_answer answered (was.2 c known)⟩
    intro proc' member step made
    rcases List.mem_or_eq_of_mem_set member with member | rfl
    · exact still (seen proc' member step made)
    · rcases List.mem_cons.mp made with rfl | earlier
      · refine ⟨stored, ?_⟩
        intro c known
        rw [tables_of_answer answered]
        exact known
      · exact still (seen proc inPool step earlier)
  · exact ⟨stored, seen⟩

/-- No request arrives but mutations with accepted inputs. -/
def mutationsArrive (isDateString : String → Bool) : Event Request Choice String → Bool
  | .arrive r => r.mutates isDateString
  | _ => true

/-- **Stored reservations are well formed**, over every interleaving of mutations
with accepted inputs. -/
theorem stored_rows_are_well_formed {w : World} {events : List (Event Request Choice String)}
    {r : Reservation} (start : AllStored isDateString w.tables)
    (ran : (server db cfg rounds).run events ⟨w, []⟩ = some P)
    (accepted : ∀ e ∈ events, mutationsArrive isDateString e = true)
    (stored : r ∈ P.shared.tables.reservations) :
    isValidTimeString r.time = true ∧
      (∃ m : Nat, m < 1440 ∧ convertToMinutes r.time = .finite m) ∧
      1 ≤ r.guests ∧ isDateString r.date = true ∧ r.customer ∈ P.shared.tables.customers := by
  have nothing : RowsStored db isDateString ⟨w, []⟩ := by
    refine ⟨start, ?_⟩
    intro proc member
    cases member
  have along : (server db cfg rounds).Along (fun _ e => mutationsArrive isDateString e = true)
      events ⟨w, []⟩ := .of_forall fun e member _ => accepted e member
  have kept := Server.run_preserves_always (Mutates db isDateString) (RowsStored db isDateString)
    mutates_of_arrival (fun mutates held _ fired => rowsStored_step mutates held fired) ran along
    (Pool.always_nil _) nothing
  have row := kept.2.1 r stored
  obtain ⟨m, day, minutes⟩ := convertToMinutes_of_valid row.time
  exact ⟨row.time, ⟨m, day, minutes⟩, row.guests, row.date, row.customer⟩

/-- A reservation is moved to 20:00 while another update of it, with an explicit
`null`, is in flight. -/
def updatesTogether : List (Event Request Choice String) :=
  [.arrive (tenAt "18:00"), .resume 0 .reply, .resume 0 .reply, .resume 0 .reply, .resume 0 .reply,
    .arrive (.mutation (.updateReservation moveToEight)),
    .arrive (.mutation (.updateReservation
      ⟨1, .undefined, .given "2025-03-11", .null, .undefined⟩)),
    .resume 1 .reply, .resume 2 .reply, .resume 1 (.batch true []), .resume 1 (.batch true []),
    .resume 2 (.batch true []), .resume 2 (.batch true []), .resume 1 .reply, .resume 2 .reply]

theorem stored_rows_after_updates :
    ∃ P, (server .inMemory .default 0).run updatesTogether ⟨.empty, []⟩ = some P ∧
      P.shared.tables.reservations.map (fun r => r.time) = ["20:00"] ∧
      ∀ r ∈ P.shared.tables.reservations, isValidTimeString r.time = true ∧
        (∃ m : Nat, m < 1440 ∧ convertToMinutes r.time = .finite m) ∧
        1 ≤ r.guests ∧ isoDateString r.date = true ∧ r.customer ∈ P.shared.tables.customers := by
  have result : ((server .inMemory .default 0).run updatesTogether ⟨.empty, []⟩).any (fun P =>
      P.shared.tables.reservations.map (fun r => r.time) = ["20:00"]) = true := by
    decide +kernel
  obtain ⟨P, ran, moved⟩ := (Option.any_eq_true _ _).mp result
  have accepted : ∀ e ∈ updatesTogether, mutationsArrive isoDateString e = true := by
    decide +kernel
  have start : AllStored isoDateString World.empty.tables := by
    intro r member
    cases member
  exact ⟨P, ran, of_decide_eq_true moved, fun r stored =>
    stored_rows_are_well_formed start ran accepted stored⟩

/-! ## Names -/

/-- The name of the customer the program is about to create. -/
def newName (p : Async api Response) : Option String :=
  match p.next? with
  | some (.db (.saveCustomer name)) => some name
  | _ => none

theorem newName_eq_some {p : Async api Response} {name : String} :
    newName p = some name ↔ p.next? = some (.db (.saveCustomer name)) := by
  unfold newName
  split
  · rename_i name' next
    simp [next]
  · rename_i other
    constructor
    · intro none
      cases none
    · intro next
      exact absurd next (other name)

/-- No name is looked up while another request is about to create a customer of
that name. -/
def looksUpAlone (P : Pool api Request World Response) : Event Request Choice String → Bool
  | .resume i _ =>
    match P.procs[i]?.bind fun proc => proc.prog.next? with
    | some (.db (.findCustomer name)) => P.procs.all fun proc => newName proc.prog ≠ some name
    | _ => true
  | _ => true

/-- No request arrives but reservations. -/
def reservationsArrive : Event Request Choice String → Bool
  | .arrive (.mutation (.createReservation _)) => true
  | .arrive _ => false
  | _ => true

/-- The names of the customers, stored and about to be. -/
def allNames (P : Pool api Request World Response) : List String :=
  P.shared.tables.customers.map Customer.name ++ P.procs.filterMap fun proc => newName proc.prog

theorem filterMap_middle {β γ : Type} {f : β → Option γ} {l₁ l₂ : List β} {x : β} :
    (l₁ ++ x :: l₂).filterMap f = l₁.filterMap f ++ ((f x).toList ++ l₂.filterMap f) := by
  rw [List.filterMap_append, List.filterMap_cons]
  cases f x <;> rfl

/-- A name is only added after a lookup that missed it, and a customer that is
created was about to be. -/
theorem allNames_resume {i : Nat} {c : Choice} {proc : Proc api Request World Response}
    {call : Call} {k : Except Exn call.Reply → Async api Response} {r : Except Exn call.Reply}
    {w' : World} (found : P.procs[i]? = some proc) (suspended : proc.prog = .await call k)
    (answered : (interp db).answer c call P.shared = some (r, w'))
    (missed : ∀ name, newName (k r) = some name → call = .db (.findCustomer name) ∧
      P.shared.tables.customers.find? (fun c => c.name = name) = none)
    (alone : ∀ name, call = .db (.findCustomer name) →
      ∀ proc ∈ P.procs, newName proc.prog ≠ some name)
    (distinct : (allNames P).Nodup) :
    (allNames ⟨w', P.procs.set i (proc.resumed call P.shared (k r))⟩).Nodup := by
  obtain ⟨before, after, procs, replaced⟩ := P.split found
  unfold allNames at distinct ⊢
  simp only [replaced, filterMap_middle, Proc.resumed]
  rw [procs, filterMap_middle, suspended] at distinct
  rw [procs] at alone
  cases new : newName (k r) with
  | some name =>
    obtain ⟨rfl, absent⟩ := missed name new
    have same : w'.tables.customers = P.shared.tables.customers := by
      obtain ⟨-, -, rfl⟩ := interp_db.mp answered
      rfl
    have unstored : name ∉ P.shared.tables.customers.map Customer.name := by
      intro member
      obtain ⟨customer, stored, named⟩ := List.mem_map.mp member
      exact List.find?_eq_none.mp absent customer stored (decide_eq_true named)
    have unplanned : ∀ l : List (Proc api Request World Response),
        (∀ proc ∈ l, newName proc.prog ≠ some name) →
        name ∉ l.filterMap fun proc => newName proc.prog := by
      intro l others member
      obtain ⟨other, inPool, planned⟩ := List.mem_filterMap.mp member
      exact others other inPool planned
    have others := alone name rfl
    have unplannedBefore := unplanned before fun other member =>
      others other (List.mem_append_left _ member)
    have unplannedAfter := unplanned after fun other member =>
      others other (List.mem_append_right _ (List.mem_cons_of_mem _ member))
    rw [same, ← List.append_assoc, Option.toList_some, List.singleton_append, List.nodup_middle,
      List.nodup_cons, List.append_assoc]
    refine ⟨?_, distinct⟩
    simp only [List.mem_append, not_or]
    exact ⟨unstored, unplannedBefore, unplannedAfter⟩
  | none =>
    rcases customers_of_answer answered with same | ⟨name, rfl, added⟩
    · rw [same]
      exact distinct.sublist (.append (.refl _) (.append (.refl _) (List.sublist_append_right _ _)))
    · -- the name moves from those about to be created to those stored
      have planned : newName (.await (.db (.saveCustomer name)) k) = some name := rfl
      rw [planned, Option.toList_some, List.singleton_append, ← List.append_assoc,
        List.nodup_middle, List.append_assoc] at distinct
      rw [added, Tables.addCustomer, List.map_append, List.append_assoc]
      exact List.nodup_middle.mpr distinct

theorem create_of_reservationsArrive {r : Request}
    (arrives : reservationsArrive (.arrive r) = true) :
    ∃ data, r = .mutation (.createReservation data) := by
  rcases r with q | data | id | data
  · cases arrives
  · exact ⟨data, rfl⟩
  · cases arrives
  · cases arrives

/-- What a reservation is about to create comes after a lookup that missed it. -/
theorem missed_of_resumed {proc : Proc api Request World Response} {call : Call} {s : World}
    {p : Async api Response} {name : String}
    (handles : HandlesCustomer db ((call, s) :: proc.history) p) (new : newName p = some name) :
    call = .db (.findCustomer name) ∧
      s.tables.customers.find? (fun c => c.name = name) = none := by
  obtain ⟨s', h', same, absent⟩ := handles.missed name (newName_eq_some.mp new)
  cases same
  exact ⟨rfl, absent⟩

theorem allNames_step {e : Event Request Choice String}
    (customers : P.Always (fun _ => HandlesCustomer db) (interp db))
    (distinct : (allNames P).Nodup) (good : reservationsArrive e = true ∧ looksUpAlone P e = true)
    (fired : (server db cfg rounds).fire e P = some P') : (allNames P').Nodup := by
  rcases Server.fire_cases fired with ⟨r, rfl, rfl⟩ |
    ⟨i, c, proc, call, k, r, w', rfl, found, suspended, answered, rfl⟩ | ⟨key, rfl, rfl⟩
  · obtain ⟨data, rfl⟩ := create_of_reservationsArrive good.1
    unfold allNames at distinct ⊢
    rw [List.filterMap_append]
    exact (List.append_nil (P.procs.filterMap fun proc => newName proc.prog)).symm ▸ distinct
  · have handles := customers proc (List.mem_of_getElem? found)
    rw [suspended] at handles
    refine allNames_resume found suspended answered ?_ ?_ distinct
    · intro name new
      exact missed_of_resumed (handles.2 c P.shared r w' answered).here new
    · intro name lookup other member planned
      have alone := good.2
      simp only [looksUpAlone, found, Option.bind_some, suspended, Async.next?, lookup,
        List.all_eq_true, decide_eq_true_eq] at alone
      exact alone other member planned
  · exact distinct

/-- **Names stay distinct**, if no name is looked up while another request is about
to create a customer of that name. -/
theorem names_stay_distinct {w : World} {events : List (Event Request Choice String)}
    (start : (w.tables.customers.map Customer.name).Nodup)
    (ran : (server db cfg rounds).run events ⟨w, []⟩ = some P)
    (alone : (server db cfg rounds).Along (fun P e => reservationsArrive e = true ∧
      looksUpAlone P e = true) events ⟨w, []⟩) :
    (P.shared.tables.customers.map Customer.name).Nodup := by
  have nothing : (allNames ⟨w, []⟩).Nodup := by
    unfold allNames
    rw [List.filterMap_nil, List.append_nil]
    exact start
  have kept := Server.run_preserves_always (fun _ => HandlesCustomer db)
    (fun P => (allNames P).Nodup) ?_ allNames_step ran alone (Pool.always_nil _) nothing
  · exact kept.2.sublist (List.sublist_append_left _ _)
  · intro Q r good
    obtain ⟨data, rfl⟩ := create_of_reservationsArrive good.1
    exact create_handlesCustomer

/-- Two reservations of a new customer look for the name before either creates it. -/
def bothLookFirst : List (Event Request Choice String) :=
  [.arrive (tenAt "18:00"), .arrive (tenAt "20:00"), .resume 0 .reply, .resume 1 .reply,
    .resume 0 .reply, .resume 1 .reply]

/-- The customer is created twice. -/
theorem customer_created_twice :
    ¬ ∀ (db : QueryEngine) (cfg : Config) (rounds : Nat) (w : World)
      (events : List (Event Request Choice String)) (P : Pool api Request World Response),
      (w.tables.customers.map Customer.name).Nodup →
      (server db cfg rounds).run events ⟨w, []⟩ = some P → events.all reservationsArrive = true →
      (P.shared.tables.customers.map Customer.name).Nodup := by
  intro claim
  have result : ((server .inMemory .default 0).run bothLookFirst ⟨.empty, []⟩).any (fun P =>
      !decide (P.shared.tables.customers.map Customer.name).Nodup) = true := by
    decide +kernel
  obtain ⟨P, ran, twice⟩ := (Option.any_eq_true _ _).mp result
  have distinct := claim _ _ _ .empty _ P .nil ran (by decide)
  rw [decide_eq_true distinct] at twice
  cases twice

/-- The second reservation looks for the name when the first has created it. -/
theorem names_stay_distinct_in_turn :
    ∃ events P, (server .inMemory .default 0).run events ⟨.empty, []⟩ = some P ∧
      P.shared.tables.reservations.length = 2 ∧
      (P.shared.tables.customers.map Customer.name).Nodup := by
  let events : List (Event Request Choice String) :=
    [.arrive (tenAt "18:00"), .arrive (tenAt "20:00"), .resume 0 .reply, .resume 0 .reply,
      .resume 1 .reply, .resume 1 .reply, .resume 0 .reply, .resume 1 .reply, .resume 0 .reply]
  have result : ((server .inMemory .default 0).checkedRun (fun P e =>
      reservationsArrive e && looksUpAlone P e) events ⟨.empty, []⟩).any
        (fun P => P.shared.tables.reservations.length = 2) = true := by
    decide +kernel
  obtain ⟨P, checked, two⟩ := (Option.any_eq_true _ _).mp result
  obtain ⟨ran, alone⟩ := Server.of_checkedRun
    (fun _ _ checks => Bool.and_eq_true_iff.mp checks) checked
  have start : (World.empty.tables.customers.map Customer.name).Nodup := .nil
  exact ⟨events, P, ran, of_decide_eq_true two, names_stay_distinct start ran alone⟩

end RestaurantAssistant
