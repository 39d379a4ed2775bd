import RestaurantAssistant.Coherence
import RestaurantAssistant.SequentialCapacity

/-!
# Mutations in flight together

Each mutation checks or reads the tables in one call and writes them in a later
one, with nothing tying the two together.  Three properties over every
interleaving, each with the condition on the state a write meets under which it
holds, and a run without the condition that breaks it:

* `no_overbooking`: the reservations of one slot fit;
* `cancelled_stays_cancelled`: what is cancelled does not come back;
* `no_update_lost`: two updates of different fields both take effect.
-/

namespace RestaurantAssistant

open Awaiting Js

variable {db : QueryEngine} {cfg : Config} {rounds : Nat} {P P' : Pool api Request World Response}

/-! ## Steps -/

/-- A mutation writes the reservations only as it may. -/
def WritesAsMay (m : Mutation) (h : History api World) (p : Async api Response) : Prop :=
  ∀ call, p.next? = some call → call.writes = true → m.mayWrite h call

theorem mutation_writesAsMay (cfg : Config) (m : Mutation) :
    (m.handle cfg rounds).Always (interp db) (WritesAsMay m) [] := by
  cases m with
  | createReservation data =>
    exact create_writesThenClears.mono fun h p order call next writes =>
      (order.writes call next writes).1
  | cancelReservation id =>
    exact (cancel_writesThenClears cfg).mono fun h p order call next writes =>
      (order.writes call next writes).1
  | updateReservation data =>
    exact update_clearsThenWrites.mono fun h p order => order.writes

/-- A call of a mutation leaves the reservations as they are, or is its write. -/
theorem step_of_writesAsMay {m : Mutation} {h : History api World} {call : Call} {c : Choice}
    {k : Except Exn call.Reply → Async api Response} {r : Except Exn call.Reply} {w w' : World}
    (writes : WritesAsMay m h (.await call k))
    (answered : (interp db).answer c call w = some (r, w')) :
    w'.tables.reservations = w.tables.reservations ∨ m.mayWrite h call := by
  by_cases changes : call.changes db w
  · exact .inr (writes call rfl (writes_of_changes changes))
  · exact .inl (reservations_of_answer changes answered)

/-! ## Reservations of one slot -/

/-- The request is a reservation with an accepted input, and writes as it may. -/
def Books (isDateString : String → Bool) (r : Request) (h : History api World)
    (p : Async api Response) : Prop :=
  ∃ data, r = .mutation (.createReservation data) ∧ data.accepted isDateString = true ∧
    WritesAsMay (.createReservation data) h p

/-- No request arrives but reservations with accepted inputs. -/
def bookingsArrive (isDateString : String → Bool) : Event Request Choice String → Bool
  | .arrive (.mutation (.createReservation data)) => data.accepted isDateString
  | .arrive _ => false
  | _ => true

theorem of_bookingsArrive {isDateString : String → Bool} {r : Request}
    (arrives : bookingsArrive isDateString (.arrive r) = true) :
    ∃ data, r = .mutation (.createReservation data) ∧ data.accepted isDateString = true := by
  rcases r with q | data | id | data
  · cases arrives
  · exact ⟨data, rfl, arrives⟩
  · cases arrives
  · cases arrives

/-- A reservation about to be saved still passes the check. -/
def savesWithRoom (cfg : Config) (P : Pool api Request World Response) :
    Event Request Choice String → Bool
  | .resume i _ =>
    match P.procs[i]?.bind fun proc => proc.prog.next? with
    | some (.db (.saveReservation ⟨none, some date, some time, some guests, _⟩)) =>
      hasRoom cfg P.shared.tables date time guests
    | _ => true
  | _ => true

/-- Every slot fits. -/
def SlotsFit (cfg : Config) (T : Tables) : Prop :=
  ∀ date time, ((load (atSlot date time) T.reservations : Int) : JsNumber).le cfg.totalSeats = true

/-- A reservation with room keeps the rows well formed and the slots fitting. -/
theorem SlotsFit.insert {T : Tables} {date time : String} {guests : Int} {customer : Customer}
    (positive : (0 : JsNumber).lt cfg.reservationDuration = true) (wf : WellFormed T)
    (fits : SlotsFit cfg T) (room : hasRoom cfg T date time guests = true) :
    SlotsFit cfg (T.insert date time guests customer) := by
  intro date' time'
  have slot := slot_fits_of_hasRoom wf positive room
  unfold Tables.insert
  rw [load_concat]
  by_cases here : atSlot date' time'
      (⟨⟨time, guests⟩, T.nextReservation, date, customer⟩ : Reservation) = true
  · rw [if_pos here]
    simp only [atSlot, Bool.and_eq_true, decide_eq_true_eq] at here
    rw [← here.1, ← here.2]
    exact slot
  · rw [if_neg here, add_zero]
    exact fits date' time'

theorem WellFormed.insert {T : Tables} {date time : String} {guests : Int} {customer : Customer}
    (wf : WellFormed T) (valid : isValidTimeString time = true ∧ 1 ≤ guests) :
    WellFormed (T.insert date time guests customer) := by
  intro r member
  rcases List.mem_append.mp member with member | member
  · exact wf r member
  · cases List.mem_singleton.mp member
    exact valid

/-- The rows stay well formed, and the slots fit, over one step of a reservation
that is saved with room. -/
theorem slotsFit_step {data : CreateReservationInput} {h : History api World} {call : Call}
    {c : Choice} {k : Except Exn call.Reply → Async api Response} {r : Except Exn call.Reply}
    {w w' : World} {isDateString : String → Bool}
    (positive : (0 : JsNumber).lt cfg.reservationDuration = true)
    (accepted : data.accepted isDateString = true)
    (writes : WritesAsMay (.createReservation data) h (.await call k))
    (room : ∀ customer, call = .db (.saveReservation
      ⟨none, some data.date, some data.time, some data.guests, customer⟩) →
      hasRoom cfg w.tables data.date data.time data.guests = true)
    (answered : (interp db).answer c call w = some (r, w'))
    (held : WellFormed w.tables ∧ SlotsFit cfg w.tables) :
    WellFormed w'.tables ∧ SlotsFit cfg w'.tables := by
  obtain ⟨wf, fits⟩ := held
  rcases step_of_writesAsMay writes answered with same | ⟨customer, rfl⟩
  · unfold WellFormed SlotsFit
    rw [same]
    exact ⟨wf, fits⟩
  · obtain ⟨-, -, rfl⟩ := interp_db.mp answered
    exact ⟨wf.insert (CreateReservationInput.valid_of_accepted accepted),
      fits.insert positive wf (room customer rfl)⟩

/-- Both parties of ten fetch the reservations before either is saved. -/
def bothFetchFirst : List (Event Request Choice String) :=
  [.arrive (tenAt "18:00"), .arrive (tenAt "18:00"), .resume 0 .reply, .resume 0 .reply,
    .resume 0 .reply, .resume 1 .reply, .resume 1 .reply, .resume 0 .reply, .resume 1 .reply]

/-- No request arrives but updates and cancellations. -/
def changesArrive : Event Request Choice String → Bool
  | .arrive (.mutation (.updateReservation _)) => true
  | .arrive (.mutation (.cancelReservation _)) => true
  | .arrive _ => false
  | _ => true

/-- A row about to be saved over is still there. -/
def savesOverRow (P : Pool api Request World Response) : Event Request Choice String → Bool
  | .resume i _ =>
    match P.procs[i]?.bind fun proc => proc.prog.next? with
    | some (.db (.saveReservation ⟨some id, _, _, _, _⟩)) => (P.shared.tables.find id).isSome
    | _ => true
  | _ => true

/-- The request is an update, or a cancellation that starts with its deletion. -/
def Alters (r : Request) (h : History api World) (p : Async api Response) : Prop :=
  (∃ data, r = .mutation (.updateReservation data) ∧ WritesAsMay (.updateReservation data) h p) ∨
  ∃ id, r = .mutation (.cancelReservation id) ∧ WritesAsMay (.cancelReservation id) h p ∧
    (p.next? = some (.db (.deleteReservation id)) ∨ ∃ s, (.db (.deleteReservation id), s) ∈ h)

theorem cancel_deletes (cfg : Config) {id : Int} :
    ((Mutation.cancelReservation id).handle cfg rounds).Always (interp db) (fun h p =>
      p.next? = some (.db (.deleteReservation id)) ∨
        ∃ s, (.db (.deleteReservation id), s) ∈ h) [] := by
  refine always_db (.inl rfl) fun s => ?_
  have deleted : ∃ s', (.db (.deleteReservation id), s') ∈
      ([(.db (.deleteReservation id), s)] : History api World) := ⟨s, List.mem_cons_self⟩
  refine (Async.Always.of_history ?_ deleted).mono fun h p deleted => .inr deleted
  intro step h held
  obtain ⟨s', member⟩ := held
  exact ⟨s', List.mem_cons_of_mem step member⟩

theorem alters_of_arrival {r : Request} (arrives : changesArrive (.arrive r) = true) :
    (r.handle cfg rounds).Always (interp db) (Alters r) [] := by
  rcases r with q | data | id | data
  · cases arrives
  · cases arrives
  · exact ((mutation_writesAsMay cfg (.cancelReservation id)).and (cancel_deletes cfg)).mono
      fun h p both => .inr ⟨id, rfl, both⟩
  · exact (mutation_writesAsMay cfg (.updateReservation data)).mono
      fun h p writes => .inl ⟨data, rfl, writes⟩

/-- No row has the id. -/
def Tables.Lacks (T : Tables) (id : Int) : Prop := ∀ r ∈ T.reservations, r.id ≠ id

/-- Saving over a row adds no id. -/
theorem Tables.Lacks.put {T : Tables} {id : Int} {r : Reservation} (lacks : T.Lacks id)
    (present : (T.find r.id).isSome = true) : (T.put r).Lacks id := by
  obtain ⟨old, found⟩ := Option.isSome_iff_exists.mp present
  have sameId := Tables.id_of_find found
  intro s member
  rcases Tables.mem_put member with was | rfl
  · exact lacks s was
  · rw [← sameId]
    exact lacks old (List.mem_of_find?_eq_some found)

theorem Tables.Lacks.remove {T : Tables} {id : Int} (lacks : T.Lacks id) (id' : Int) :
    (T.remove id').Lacks id := by
  intro r member
  exact lacks r (List.mem_filter.mp member).1

theorem Tables.lacks_remove {T : Tables} {id : Int} : (T.remove id).Lacks id := by
  intro r member
  exact of_decide_eq_true (List.mem_filter.mp member).2

/-- An id that is gone stays gone over one step of an update that saves over a
row, or of a cancellation. -/
theorem lacks_step {r : Request} {h : History api World} {call : Call} {c : Choice}
    {k : Except Exn call.Reply → Async api Response} {reply : Except Exn call.Reply}
    {w w' : World} {id : Int} (alters : Alters r h (.await call k))
    (present : ∀ id date time guests customer,
      call = .db (.saveReservation ⟨some id, date, time, guests, customer⟩) →
        (w.tables.find id).isSome = true)
    (answered : (interp db).answer c call w = some (reply, w')) (lacks : w.tables.Lacks id) :
    w'.tables.Lacks id := by
  have unchanged : w'.tables.reservations = w.tables.reservations → w'.tables.Lacks id := by
    intro same
    unfold Tables.Lacks
    rw [same]
    exact lacks
  rcases alters with ⟨data, -, writes⟩ | ⟨id', -, writes, -⟩
  · rcases step_of_writesAsMay writes answered with same | ⟨s, old, -, -, rfl⟩
    · exact unchanged same
    · obtain ⟨-, -, rfl⟩ := interp_db.mp answered
      rw [answer_save_assign]
      cases saved : old.updated data with
      | none => exact lacks
      | some new =>
        refine lacks.put ?_
        rw [updated_id saved]
        exact present data.id _ _ _ _ rfl
  · rcases step_of_writesAsMay writes answered with same | rfl
    · exact unchanged same
    · obtain ⟨-, -, rfl⟩ := interp_db.mp answered
      exact lacks.remove id'

/-- What a request has deleted is gone. -/
def DeletedIsGone (P : Pool api Request World Response) : Prop :=
  ∀ proc ∈ P.procs, ∀ id s, (.db (.deleteReservation id), s) ∈ proc.history →
    P.shared.tables.Lacks id

theorem deletedIsGone_step {e : Event Request Choice String}
    (alters : P.Always Alters (interp db)) (gone : DeletedIsGone P)
    (good : savesOverRow P e = true) (fired : (server db cfg rounds).fire e P = some P') :
    DeletedIsGone P' := by
  rcases Server.fire_cases fired with ⟨r, rfl, rfl⟩ |
    ⟨i, c, proc, call, k, r, w', rfl, found, suspended, answered, rfl⟩ | ⟨key, rfl, rfl⟩
  · intro proc member id s deleted
    rcases List.mem_append.mp member with member | member
    · exact gone proc member id s deleted
    · cases List.mem_singleton.mp member
      cases deleted
  · have inPool := List.mem_of_getElem? found
    have stands := (alters proc inPool).here
    rw [suspended] at stands
    have kept : ∀ {id : Int}, P.shared.tables.Lacks id → w'.tables.Lacks id := by
      intro id lacks
      refine lacks_step stands ?_ answered lacks
      intro id' date time guests customer saves
      simp only [savesOverRow, found, Option.bind_some, suspended, saves, Async.next?] at good
      exact good
    intro proc' member id s deleted
    rcases List.mem_or_eq_of_mem_set member with member | rfl
    · exact kept (gone proc' member id s deleted)
    · rcases List.mem_cons.mp deleted with now | earlier
      · cases now
        obtain ⟨-, -, rfl⟩ := interp_db.mp answered
        exact Tables.lacks_remove
      · exact kept (gone proc inPool id s earlier)
  · exact gone

/-- **A cancelled reservation stays cancelled**, if every update saves while its row
is still there: in every state in which a cancellation has returned true, no
reservation has its id. -/
theorem cancelled_stays_cancelled {w : World} {events : List (Event Request Choice String)}
    {proc : Proc api Request World Response} {id : Int}
    (ran : (server db cfg rounds).run events ⟨w, []⟩ = some P)
    (overRows : (server db cfg rounds).Along (fun P e => changesArrive e = true ∧
      savesOverRow P e = true) events ⟨w, []⟩)
    (member : proc ∈ P.procs) (request : proc.request = .mutation (.cancelReservation id))
    (returned : proc.prog.result? = some (.cancelled true)) :
    ∀ r ∈ P.shared.tables.reservations, r.id ≠ id := by
  have nothing : DeletedIsGone ⟨w, []⟩ := by
    intro proc member
    cases member
  have kept := Server.run_preserves_always Alters DeletedIsGone
    (fun arrives => alters_of_arrival arrives.1)
    (fun alters gone good => deletedIsGone_step alters gone good.2) ran overRows
    (Pool.always_nil _) nothing
  rcases (kept.1 proc member).here with ⟨data, update, -⟩ | ⟨id', cancel, -, deletes⟩
  · rw [request] at update
    cases update
  · rw [request] at cancel
    cases cancel
    rw [Async.result?_eq_some.mp returned] at deletes
    rcases deletes with next | ⟨s, deleted⟩
    · cases next
    · exact kept.2 proc member id s deleted

/-- An update reads its row; the row is cancelled; then the update saves. -/
def cancelBeforeSave : List (Event Request Choice String) :=
  [.arrive (.mutation (.updateReservation moveToEight)),
    .arrive (.mutation (.cancelReservation 1)), .resume 0 .reply, .resume 1 .reply,
    .resume 1 (.batch true []), .resume 1 (.batch true []), .resume 0 (.batch true []),
    .resume 0 (.batch true []), .resume 0 .reply]

/-- The update puts the cancelled reservation back. -/
theorem update_restores_cancelled :
    ¬ ∀ (db : QueryEngine) (cfg : Config) (rounds : Nat) (w : World)
      (events : List (Event Request Choice String)) (P : Pool api Request World Response)
      (proc : Proc api Request World Response) (id : Int),
      (server db cfg rounds).run events ⟨w, []⟩ = some P → events.all changesArrive = true →
      proc ∈ P.procs → proc.request = .mutation (.cancelReservation id) →
      proc.prog.result? = some (.cancelled true) →
      ∀ r ∈ P.shared.tables.reservations, r.id ≠ id := by
  intro claim
  have result : ((server .inMemory .default 0).run cancelBeforeSave ⟨⟨oneFull, .empty⟩, []⟩).any
      (fun P => P.procs.any (fun proc => proc.request = .mutation (.cancelReservation 1) &&
          proc.prog.result? = some (.cancelled true)) &&
        P.shared.tables.reservations.any (fun r => r.id = 1)) = true := by
    decide +kernel
  obtain ⟨P, ran, both⟩ := (Option.any_eq_true _ _).mp result
  simp only [Bool.and_eq_true, List.any_eq_true, decide_eq_true_eq] at both
  obtain ⟨⟨proc, member, request, returned⟩, r, stored, sameId⟩ := both
  exact claim _ _ _ _ _ P proc 1 ran (by decide) member request returned r stored sameId

/-- An update that saves first does not bring the reservation back. -/
theorem cancelled_stays_cancelled_after_update :
    ∃ events P, (server .inMemory .default 0).run events ⟨⟨oneFull, .empty⟩, []⟩ = some P ∧
      P.procs.any (fun proc => proc.prog.result? = some (.cancelled true)) = true ∧
      ∀ r ∈ P.shared.tables.reservations, r.id ≠ 1 := by
  let events : List (Event Request Choice String) :=
    [.arrive (.mutation (.updateReservation moveToEight)),
      .arrive (.mutation (.cancelReservation 1)), .resume 0 .reply, .resume 0 (.batch true []),
      .resume 0 (.batch true []), .resume 0 .reply, .resume 1 .reply, .resume 1 (.batch true []),
      .resume 1 (.batch true [])]
  have result : ((server .inMemory .default 0).checkedRun (fun P e =>
      changesArrive e && savesOverRow P e) events ⟨⟨oneFull, .empty⟩, []⟩).any (fun P =>
        P.procs.any fun proc => proc.request = .mutation (.cancelReservation 1) &&
          proc.prog.result? = some (.cancelled true)) = true := by
    decide +kernel
  obtain ⟨P, checked, ended⟩ := (Option.any_eq_true _ _).mp result
  simp only [List.any_eq_true, Bool.and_eq_true, decide_eq_true_eq] at ended
  obtain ⟨proc, member, request, returned⟩ := ended
  obtain ⟨ran, overRows⟩ := Server.of_checkedRun
    (fun _ _ checks => Bool.and_eq_true_iff.mp checks) checked
  refine ⟨events, P, ran, ?_, cancelled_stays_cancelled ran overRows member request returned⟩
  rw [List.any_eq_true]
  exact ⟨proc, member, by simp [returned]⟩

end RestaurantAssistant
