import RestaurantAssistant.Async.Serial
import RestaurantAssistant.Keyed
import RestaurantAssistant.Ledger

/-!
# The book behind the tables

What the service is for: a book of reservations in which each booking, cancellation and
change happens at once (`atomicBook`).  The service takes several calls for each of them, and
requests get in between.

As long as what a request has read about the reservations still holds when it writes them,
the service implements that book (`deeds_serialize`): in every interleaving the reservations
are those of the book after the deeds of the requests, one at a time, and every request that
has returned reports its deed.  The races of bookings for one date and of updates of one
reservation are exactly where the condition fails.
-/

namespace RestaurantAssistant

open Awaiting Js Keyed

/-! ## The book -/

/-- The reservations, and the number of the next one. -/
@[ext] structure Book where
  reservations : Register Reservation.id
  next : Int
  unused : ∀ r ∈ reservations.entries, r.id < next

namespace Book

/-- Is there room for the guests beside those of the date who come within the duration of a
reservation? -/
def hasRoom (cfg : Config) (B : Book) (date time : String) (guests : Int) : Bool :=
  ((B.reservations.total (startsOn date (convertToMinutes time)
    (convertToMinutes time + cfg.reservationDuration)) (fun r => r.guests) + guests : Int) :
      JsNumber).le cfg.totalSeats

/-- Enter a reservation under the next number. -/
def enter (B : Book) (date time : String) (guests : Int) (customer : Customer) : Book where
  reservations := B.reservations.add ⟨⟨time, guests⟩, B.next, date, customer⟩
    fun r member => ne_of_lt (B.unused r member)
  next := B.next + 1
  unused := by
    intro r member
    rcases Finset.mem_insert.mp member with rfl | member
    · exact Int.lt_succ B.next
    · exact Int.lt_trans (B.unused r member) (Int.lt_succ B.next)

/-- Strike out the reservation with the number. -/
def strike (B : Book) (id : Int) : Book where
  reservations := B.reservations.drop id
  next := B.next
  unused := fun r member => B.unused r (Finset.mem_filter.mp member).1

/-- Rewrite the reservation with the row's number. -/
def amend (B : Book) (r : Reservation) : Book where
  reservations := B.reservations.replace r
  next := max B.next (r.id + 1)
  unused := by
    intro s member
    rcases Finset.mem_insert.mp member with rfl | member
    · exact lt_max_of_lt_right (Int.lt_succ s.id)
    · exact lt_max_of_lt_left (B.unused s (Finset.mem_filter.mp member).1)

end Book

/-- What a mutation does to the book. -/
inductive Deed
  | booked (r : Reservation)
  | cancelled
  | changed (r : Reservation)
  deriving DecidableEq

/-- What the mutation itself does not say: the customer's row, or the reservation it is about. -/
inductive Detail
  | customer (customer : Customer)
  | row (old : Reservation)

/-- Do the whole of a mutation at once. -/
def Book.perform (cfg : Config) : Detail → Mutation → Book → Option (Deed × Book)
  | .customer customer, .createReservation data, B =>
    if customer.name = data.customerName ∧ B.hasRoom cfg data.date data.time data.guests = true then
      some (.booked ⟨⟨data.time, data.guests⟩, B.next, data.date, customer⟩,
        B.enter data.date data.time data.guests customer)
    else none
  | .row old, .cancelReservation id, B =>
    if old ∈ B.reservations.entries ∧ old.id = id then some (.cancelled, B.strike id) else none
  | .row old, .updateReservation data, B =>
    if old ∈ B.reservations.entries ∧ old.id = data.id then
      (old.updated data).map fun new => (.changed new, B.amend new)
    else none
  | _, _, _ => none

@[reducible] def bookApi : Signature := ⟨Mutation, fun _ => Deed, Empty⟩

/-- The book as a server: one call for each mutation. -/
def atomicBook (cfg : Config) : Server bookApi Mutation Book Detail Empty Deed where
  interp := ⟨fun detail m B => (B.perform cfg detail m).map fun done => (.ok done.1, done.2)⟩
  handle m := Async.call (σ := bookApi) m
  env := nofun

theorem eval_atomic {cfg : Config} {B B' : Book} {m : Mutation} {deed : Deed} (detail : Detail)
    (performed : B.perform cfg detail m = some (deed, B')) :
    Eval (atomicBook cfg).interp ((atomicBook cfg).handle m) B (.ok deed) B' := by
  refine Eval.await_iff.mpr ⟨detail, .ok deed, B', ?_, .pure⟩
  change (B.perform cfg detail m).map _ = _
  rw [performed]
  rfl

/-! ## The tables as a book -/

instance (T : Tables) : Decidable T.Numbered :=
  decidable_of_iff ((T.reservations.map Reservation.id).Nodup ∧
    ∀ r ∈ T.reservations, r.id < T.nextReservation)
    ⟨fun both => ⟨both.1, both.2⟩, fun numbered => ⟨numbered.distinct, numbered.unused⟩⟩

def Tables.book (T : Tables) (numbered : T.Numbered) : Book where
  reservations := .ofList T.reservations numbered.distinct
  next := T.nextReservation
  unused := fun r member => numbered.unused r (Register.mem_ofList.mp member)

theorem Tables.mem_book {T : Tables} (numbered : T.Numbered) {r : Reservation} :
    r ∈ (T.book numbered).reservations.entries ↔ r ∈ T.reservations := List.mem_toFinset

def Book.empty : Book := Tables.empty.book (by decide)

/-- The book of the tables, if their rows are numbered as they should be. -/
def World.book (w : World) : Book :=
  if numbered : w.tables.Numbered then w.tables.book numbered else .empty

section Tables

variable {cfg : Config} {T T' : Tables} {w w' : World}

theorem World.book_eq (numbered : w.tables.Numbered) : w.book = w.tables.book numbered :=
  dif_pos numbered

/-- Only the reservations and their numbering matter. -/
theorem World.book_congr (rows : w'.tables.reservations = w.tables.reservations)
    (next : w'.tables.nextReservation = w.tables.nextReservation) : w'.book = w.book := by
  have numbered : w'.tables.Numbered ↔ w.tables.Numbered := by
    constructor
    · intro numbered
      exact ⟨rows ▸ numbered.distinct, rows ▸ next ▸ numbered.unused⟩
    · intro numbered
      exact ⟨rows ▸ numbered.distinct, rows ▸ next ▸ numbered.unused⟩
  unfold World.book
  by_cases holds : w.tables.Numbered
  · rw [dif_pos holds, dif_pos (numbered.mpr holds)]
    unfold Tables.book
    congr 1
    congr 1
  · rw [dif_neg holds, dif_neg (mt numbered.mp holds)]

/-- The check looks at the book only. -/
theorem hasRoom_book {date time : String} {guests : Int} (numbered : T.Numbered) :
    hasRoom cfg T date time guests = (T.book numbered).hasRoom cfg date time guests := by
  rw [hasRoom_eq]
  unfold Book.hasRoom Tables.book
  rw [Register.total_ofList]
  rfl

theorem book_insert (date time : String) (guests : Int) (customer : Customer)
    (numbered : T.Numbered) :
    ∃ numbered' : (T.insert date time guests customer).Numbered,
      (T.insert date time guests customer).book numbered' =
        (T.book numbered).enter date time guests customer := by
  have numbered' : (T.insert date time guests customer).Numbered := by
    refine ⟨?_, ?_⟩
    · unfold Tables.insert
      rw [List.map_append, List.nodup_append]
      refine ⟨numbered.distinct, List.nodup_singleton _, fun id old id' new => ?_⟩
      obtain ⟨r, member, rfl⟩ := List.mem_map.mp old
      cases List.mem_singleton.mp new
      exact ne_of_lt (numbered.unused r member)
    · intro r member
      rcases List.mem_append.mp member with member | member
      · exact Int.lt_trans (numbered.unused r member) (Int.lt_succ _)
      · cases List.mem_singleton.mp member
        exact Int.lt_succ _
  refine ⟨numbered', Book.ext (Register.ofList_concat numbered.distinct numbered'.distinct ?_) rfl⟩
  intro r member
  exact ne_of_lt (numbered.unused r (Register.mem_ofList.mp member))

theorem book_remove (id : Int) (numbered : T.Numbered) :
    ∃ numbered' : (T.remove id).Numbered, (T.remove id).book numbered' =
      (T.book numbered).strike id := by
  have numbered' : (T.remove id).Numbered := by
    refine ⟨numbered.distinct.sublist (List.filter_sublist.map _), fun r member => ?_⟩
    exact numbered.unused r (List.mem_filter.mp member).1
  exact ⟨numbered', Book.ext (Register.ofList_filter numbered.distinct numbered'.distinct) rfl⟩

theorem book_put {old new : Reservation} (numbered : T.Numbered) (member : old ∈ T.reservations)
    (sameId : old.id = new.id) :
    ∃ numbered' : (T.put new).Numbered, (T.put new).book numbered' =
      (T.book numbered).amend new := by
  have known : new.id < T.nextReservation := by
    rw [← sameId]
    exact numbered.unused old member
  have present : T.reservations.any (fun row => row.id = new.id) = true :=
    List.any_eq_true.mpr ⟨old, member, decide_eq_true sameId⟩
  have numbered' : (T.put new).Numbered := by
    refine ⟨Tables.put_distinct numbered.distinct, fun r inTable => ?_⟩
    rcases Tables.mem_put inTable with before | rfl
    · exact numbered.unused r before
    · exact known
  refine ⟨numbered', Book.ext ?_ (max_eq_left known).symm⟩
  have rows : (T.put new).reservations =
      T.reservations.map fun row => if row.id = new.id then new else row := if_pos present
  have distinct := numbered'.distinct
  unfold Tables.book Book.amend
  simp only [rows] at distinct ⊢
  exact Register.ofList_rewrite numbered.distinct distinct ⟨old, member, sameId⟩

end Tables

/-! ## The deeds of a request -/

/-- What a call does to the reservations. -/
def wrote : Call × World → Option Deed
  | (.db (.saveReservation ⟨none, some date, some time, some guests, customer⟩), s) =>
    some (.booked ⟨⟨time, guests⟩, s.tables.nextReservation, date, customer⟩)
  | (.db (.saveReservation ⟨some id, some date, some time, some guests, customer⟩), _) =>
    some (.changed ⟨⟨time, guests⟩, id, date, customer⟩)
  | (.db (.deleteReservation id), s) =>
    if s.tables.reservations.any (fun r => r.id = id) then some .cancelled else none
  | _ => none

/-- What the request has done so far. -/
def deed (proc : Proc api Request World Response) : Option (Mutation × Except Empty Deed) :=
  match proc.request with
  | .mutation m => (proc.history.filterMap wrote).head?.map fun done => (m, .ok done)
  | .query _ => none

/-- What a response says was done. -/
def reportedDeed : Async api Response → Option Deed
  | .pure (.created out) => out.reservation.map .booked
  | .pure (.cancelled true) => some .cancelled
  | .pure (.updated r) => some (.changed r)
  | _ => none

/-- The entity a mutation saves follows from what it has read. -/
def Intends (cfg : Config) (h : History api World) (draft : ReservationDraft) : Mutation → Prop
  | .createReservation data => ∃ s customer, (.db (.findReservations data.date), s) ∈ h ∧
      hasRoom cfg s.tables data.date data.time data.guests = true ∧
      customer.name = data.customerName ∧
      draft = ⟨none, some data.date, some data.time, some data.guests, customer⟩
  | .updateReservation data => ∃ s old, (.db (.findReservation data.id), s) ∈ h ∧
      s.tables.find data.id = some old ∧ draft = assign old data
  | .cancelReservation _ => False

/-- Where a request stands: it writes once, as it intends, and reports what it has done. -/
structure Proceeds (cfg : Config) (r : Request) (h : History api World) (p : Async api Response) :
    Prop where
  saves : ∀ draft, p.next? = some (.db (.saveReservation draft)) → h.filterMap wrote = [] ∧
    ∃ m, r = .mutation m ∧ Intends cfg h draft m
  deletes : ∀ id, p.next? = some (.db (.deleteReservation id)) → h.filterMap wrote = [] ∧
    r = .mutation (.cancelReservation id)
  reports : p.finished = true → (h.filterMap wrote).head? = reportedDeed p

section Programs

variable {db : QueryEngine} {cfg : Config} {rounds : Nat} {r : Request} {h : History api World}

theorem wrote_of_reads {call : Call} {s : World} (reads : call.writes = false) :
    wrote (call, s) = none := by
  cases call with
  | redis call => rfl
  | db call =>
    cases call with
    | saveReservation draft => cases reads
    | deleteReservation id => cases reads
    | _ => rfl

theorem wrote_assign {old : Reservation} {data : UpdateReservationInput} {s : World} :
    wrote (.db (.saveReservation (assign old data)), s) = (old.updated data).map .changed := by
  unfold assign Reservation.updated
  cases data.date.assign old.date with
  | none => rfl
  | some date =>
    cases data.time.assign old.time with
    | none => rfl
    | some time => cases data.guests.assign old.guests <;> rfl

theorem filterMap_wrote_cons {call : Call} {s : World} (reads : call.writes = false) :
    ((call, s) :: h).filterMap wrote = h.filterMap wrote :=
  List.filterMap_cons_none (wrote_of_reads reads)

theorem filterMap_wrote_clears {l : History api World}
    (steps : ∀ step ∈ l, Call.clears step.1 = true) :
    (l ++ h).filterMap wrote = h.filterMap wrote := by
  rw [List.filterMap_append, List.filterMap_eq_nil_iff.mpr, List.nil_append]
  intro step member
  exact wrote_of_reads (writes_of_clears (steps step member))

theorem Proceeds.reads {call : Call} {k : Except Exn call.Reply → Async api Response}
    (reads : call.writes = false) : Proceeds cfg r h (.await call k) := by
  refine ⟨fun draft next => ?_, fun id next => ?_, fun finished => by cases finished⟩
  · cases next
    cases reads
  · cases next
    cases reads

theorem Proceeds.clearing {h₀ : History api World} {q : Async api Response}
    (clears : ClearingSince h₀ h q) (running : q.finished = false) : Proceeds cfg r h q := by
  refine ⟨fun draft next => ?_, fun id next => ?_, fun finished => ?_⟩
  · cases clears.next _ next
  · cases clears.next _ next
  · rw [running] at finished
    cases finished

theorem Proceeds.ended {p : Async api Response} (next : p.next? = none)
    (reports : (h.filterMap wrote).head? = reportedDeed p) : Proceeds cfg r h p := by
  refine ⟨fun draft saves => ?_, fun id deletes => ?_, fun _ => reports⟩
  · rw [next] at saves
    cases saves
  · rw [next] at deletes
    cases deletes

/-- A request that ends without having written. -/
theorem Proceeds.nothing {p : Async api Response} (next : p.next? = none)
    (unwritten : h.filterMap wrote = []) (unreported : reportedDeed p = none) :
    Proceeds cfg r h p := by
  refine .ended next ?_
  rw [unwritten, unreported]
  rfl

theorem createFor_proceeds {data : CreateReservationInput} {customer : Customer}
    (unwritten : h.filterMap wrote = []) (named : customer.name = data.customerName) :
    ((createFor cfg rounds data customer).tryCatch createFailed >>= fun x =>
      .pure (.created x)).Always (interp db)
        (Proceeds cfg (.mutation (.createReservation data))) h := by
  unfold createFor
  refine always_db (.reads rfl) fun s => ?_
  have fetched : ((((.db (.findReservations data.date) : Call), s) :: h).filterMap wrote) = [] :=
    (filterMap_wrote_cons rfl).trans unwritten
  simp only [Tables.answer, ofExcept_ok]
  change Async.Always _ _ (((if _ then _ else _ : Async api _).tryCatch createFailed) >>= _) _
  split
  · rename_i room
    refine always_db ⟨fun draft next => ?_, fun id next => ?_, fun finished => by cases finished⟩
      fun s' => ?_
    · cases next
      exact ⟨fetched, _, rfl, s, customer, List.mem_cons_self, room, named, rfl⟩
    · cases next
    · refine clear_then_always (fun _ _ => .clearing) fun l steps _ => .ended rfl ?_
      rw [filterMap_wrote_clears steps]
      rfl
  · generalize findNearestAvailableSlots _ _ _ _ _ _ = nearest
    rcases nearest with _ | _ | _
    · exact .nothing rfl fetched rfl
    · exact .nothing rfl fetched rfl
    · exact .nothing rfl fetched rfl

theorem create_proceeds {data : CreateReservationInput} :
    ((Mutation.createReservation data).handle cfg rounds).Always (interp db)
      (Proceeds cfg (.mutation (.createReservation data))) [] := by
  refine always_db (.reads rfl) fun s => ?_
  simp only [Tables.answer]
  cases found : s.tables.customers.find? fun c => c.name = data.customerName with
  | some customer =>
    have named := List.find?_some found
    exact createFor_proceeds rfl (of_decide_eq_true named)
  | none =>
    refine always_db (.reads rfl) fun s' => ?_
    exact createFor_proceeds rfl rfl

theorem cancel_proceeds (cfg : Config) {id : Int} :
    ((Mutation.cancelReservation id).handle cfg rounds).Always (interp db)
      (Proceeds cfg (.mutation (.cancelReservation id))) [] := by
  refine always_db ⟨fun draft next => ?_, fun id' next => ?_, fun finished => by cases finished⟩
    fun s => ?_
  · cases next
  · cases next
    exact ⟨rfl, rfl⟩
  simp only [Tables.answer]
  change Async.Always _ _ (((if _ then _ else _ : Async api _).tryCatch _) >>= _) _
  by_cases missing : s.tables.reservations.countP (fun r => r.id = id) = 0
  · rw [if_pos missing]
    refine .ended rfl ?_
    have absent : s.tables.reservations.any (fun r => r.id = id) = false := by
      simpa using List.countP_eq_zero.mp missing
    change ([(_, s)].filterMap wrote).head? = none
    simp [wrote, absent]
  · rw [if_neg missing]
    refine clear_then_always (fun _ _ => .clearing) fun l steps _ => .ended rfl ?_
    have present : s.tables.reservations.any (fun r => r.id = id) = true := by
      simpa using List.countP_pos_iff.mp (Nat.pos_of_ne_zero missing)
    rw [filterMap_wrote_clears steps]
    simp only [List.filterMap_cons, wrote, present, if_true, List.head?_cons]
    rfl

theorem update_proceeds (cfg : Config) {data : UpdateReservationInput} :
    ((Mutation.updateReservation data).handle cfg rounds).Always (interp db)
      (Proceeds cfg (.mutation (.updateReservation data))) [] := by
  refine always_db (.reads rfl) fun s => ?_
  simp only [Tables.answer]
  cases found : s.tables.find data.id with
  | none => exact .nothing rfl rfl rfl
  | some old =>
    refine clear_then_always (fun _ _ => .clearing) fun l steps _ => ?_
    have unwritten : (l ++ [((.db (.findReservation data.id) : Call), s)]).filterMap wrote = [] :=
      filterMap_wrote_clears steps
    refine always_db ⟨fun draft next => ?_, fun id next => ?_, fun finished => by cases finished⟩
      fun s' => ?_
    · cases next
      exact ⟨unwritten, _, rfl, s, old, by simp, found, rfl⟩
    · cases next
    · rw [answer_save_assign]
      cases saved : old.updated data with
      | some new =>
        apply Proceeds.ended rfl
        rw [List.filterMap_cons, wrote_assign, saved, unwritten]
        rfl
      | none =>
        apply Proceeds.ended rfl
        rw [List.filterMap_cons, wrote_assign, saved, unwritten]
        rfl

theorem OnlyReads.proceeds {p : Async api Response} {q : Query} (reads : OnlyReads p)
    (unwritten : h.filterMap wrote = []) :
    p.Always (interp db) (Proceeds cfg (.query q)) h := by
  induction p generalizing h with
  | pure a =>
    obtain ⟨value, rfl⟩ := reads a rfl
    exact .nothing rfl unwritten rfl
  | throw e => exact .nothing rfl unwritten rfl
  | diverge => exact .nothing rfl unwritten rfl
  | await call k ih =>
    refine ⟨.reads reads.1, fun c s reply s' _ => ih reply (reads.2 reply) ?_⟩
    exact (filterMap_wrote_cons reads.1).trans unwritten

theorem request_proceeds (r : Request) :
    (r.handle cfg rounds).Always (interp db) (Proceeds cfg r) [] := by
  rcases r with q | data | id | data
  · exact (onlyReads_query q).proceeds rfl
  · exact create_proceeds
  · exact cancel_proceeds cfg
  · exact update_proceeds cfg

end Programs

/-! ## Runs -/

/-- What the step has read of the reservations reads the same now. -/
def readsSame (T : Tables) : Call × World → Bool
  | (.db (.findReservations date), s) => decide (T.on date = s.tables.on date)
  | (.db (.findReservation id), s) => decide (T.find id = s.tables.find id)
  | _ => true

/-- A request that is about to write finds what it has read about the reservations. -/
def steady (P : Pool api Request World Response) : Event Request Choice String → Bool
  | .resume i _ => (P.procs[i]?).all fun proc => !proc.prog.next?.any Call.writes ||
      proc.history.all (readsSame P.shared.tables)
  | _ => true

section Runs

variable {db : QueryEngine} {cfg : Config} {rounds : Nat} {P P' : Pool api Request World Response}
  {w w' : World}

theorem hasRoom_of_readsSame {T : Tables} {s : World} {date time : String} {guests : Int}
    (same : readsSame T (.db (.findReservations date), s) = true) :
    hasRoom cfg T date time guests = hasRoom cfg s.tables date time guests := by
  unfold hasRoom Tables.bookingsOn
  rw [of_decide_eq_true same]

/-- A call that only reads leaves the book alone. -/
theorem book_of_reads {call : Call} {c : Choice} {reply : Except Exn call.Reply}
    (reads : call.writes = false) (answered : (interp db).answer c call w = some (reply, w'))
    (numbered : w.tables.Numbered) : w'.tables.Numbered ∧ w'.book = w.book := by
  have silent := silent_of_reads (s := w) reads
  have unchanged : w'.tables.reservations = w.tables.reservations ∧
      w'.tables.nextReservation = w.tables.nextReservation := by
    rcases rows_of_answer answered with ⟨-, -, same⟩ | ⟨row, saved, -⟩ | ⟨id, -, deleted, -⟩ |
      ⟨row, draft, rfl, -⟩
    · exact same
    · rw [silent.1] at saved
      cases saved
    · rw [silent.2] at deleted
      cases deleted
    · cases reads
  refine ⟨⟨?_, ?_⟩, World.book_congr unchanged.1 unchanged.2⟩
  · rw [unchanged.1]
    exact numbered.distinct
  · rw [unchanged.1, unchanged.2]
    exact numbered.unused

variable {proc : Proc api Request World Response} {p : Async api Response}

/-- The request writes nothing by this call. -/
theorem deed_resumed_same {call : Call} (nothing : wrote (call, w) = none) :
    deed (proc.resumed call w p) = deed proc := by
  unfold deed Proc.resumed
  simp only [List.filterMap_cons_none nothing]

/-- The request writes for the first time. -/
theorem deed_resumed_new (call : Call) {m : Mutation} {done : Deed}
    (request : proc.request = .mutation m) (unwritten : proc.history.filterMap wrote = [])
    (writes : wrote (call, w) = some done) :
    deed proc = none ∧ deed (proc.resumed call w p) = some (m, .ok done) := by
  unfold deed Proc.resumed
  simp only [request, unwritten, List.filterMap_cons_some writes]
  exact ⟨rfl, rfl⟩

/-- A booking that finds the reservations of its date as it has read them. -/
theorem create_commits {data : CreateReservationInput} {customer : Customer} {s : World}
    (numbered : w.tables.Numbered) (request : proc.request = .mutation (.createReservation data))
    (unwritten : proc.history.filterMap wrote = []) (named : customer.name = data.customerName)
    (room : hasRoom cfg s.tables data.date data.time data.guests = true)
    (same : readsSame w.tables (.db (.findReservations data.date), s) = true)
    (after : w'.tables = w.tables.insert data.date data.time data.guests customer) :
    w'.tables.Numbered ∧ (atomicBook cfg).CommitsAlone (fun _ _ => True) World.book deed w w' proc
      (proc.resumed (.db (.saveReservation
        ⟨none, some data.date, some data.time, some data.guests, customer⟩)) w p) := by
  obtain ⟨numbered', entered⟩ := book_insert data.date data.time data.guests customer numbered
  rw [← after] at numbered'
  obtain ⟨before, done⟩ := deed_resumed_new (p := p) (.db (.saveReservation
    ⟨none, some data.date, some data.time, some data.guests, customer⟩)) request unwritten rfl
  refine ⟨numbered', .inr ⟨_, before, done, trivial, ?_⟩⟩
  rw [← hasRoom_of_readsSame same, hasRoom_book numbered] at room
  rw [World.book_eq numbered, World.book_eq numbered']
  refine eval_atomic (.customer customer) ?_
  simp only [after, entered]
  exact if_pos ⟨named, room⟩

/-- A change that finds the reservation as it has read it, unless a `null` is refused. -/
theorem update_commits {data : UpdateReservationInput} {old : Reservation}
    (numbered : w.tables.Numbered) (request : proc.request = .mutation (.updateReservation data))
    (unwritten : proc.history.filterMap wrote = []) (found : w.tables.find data.id = some old)
    (after : w'.tables = (w.tables.answer db (.saveReservation (assign old data))).2) :
    w'.tables.Numbered ∧ (atomicBook cfg).CommitsAlone (fun _ _ => True) World.book deed w w' proc
      (proc.resumed (.db (.saveReservation (assign old data))) w p) := by
  rw [answer_save_assign] at after
  have written : wrote (.db (.saveReservation (assign old data)), w) =
      (old.updated data).map .changed := wrote_assign
  have member : old ∈ w.tables.reservations := List.mem_of_find?_eq_some found
  have sameId : old.id = data.id := Tables.id_of_find found
  cases saved : old.updated data with
  | none =>
    rw [saved] at after written
    have same : w'.tables = w.tables := after
    refine ⟨same ▸ numbered, .inl ⟨?_, deed_resumed_same written⟩⟩
    exact World.book_congr (by rw [same]) (by rw [same])
  | some new =>
    rw [saved] at after written
    have newId : new.id = old.id := (updated_id saved).trans sameId.symm
    obtain ⟨numbered', amended⟩ := book_put numbered member newId.symm
    have put : w'.tables = w.tables.put new := after
    rw [← put] at numbered'
    obtain ⟨before, done⟩ := deed_resumed_new (p := p) _ request unwritten written
    refine ⟨numbered', .inr ⟨_, before, done, trivial, ?_⟩⟩
    rw [World.book_eq numbered, World.book_eq numbered']
    refine eval_atomic (.row old) ?_
    simp only [put, amended]
    have there : old ∈ (w.tables.book numbered).reservations.entries ∧ old.id = data.id :=
      ⟨(Tables.mem_book numbered).mpr member, sameId⟩
    refine (if_pos there).trans ?_
    rw [saved]
    rfl

/-- A cancellation strikes out a reservation, or does nothing. -/
theorem cancel_commits {id : Int} (numbered : w.tables.Numbered)
    (request : proc.request = .mutation (.cancelReservation id))
    (unwritten : proc.history.filterMap wrote = []) (after : w'.tables = w.tables.remove id) :
    w'.tables.Numbered ∧ (atomicBook cfg).CommitsAlone (fun _ _ => True) World.book deed w w' proc
      (proc.resumed (.db (.deleteReservation id)) w p) := by
  obtain ⟨numbered', struck⟩ := book_remove id numbered
  rw [← after] at numbered'
  refine ⟨numbered', ?_⟩
  cases found : w.tables.find id with
  | none =>
    have missing : w.tables.reservations.any (fun r => r.id = id) = false := by
      simpa using List.find?_eq_none.mp found
    have nothing : wrote (.db (.deleteReservation id), w) = none := by
      simp [wrote, missing]
    have same : w'.tables = w.tables := after.trans (Tables.remove_of_missing found)
    refine .inl ⟨World.book_congr (by rw [same]) (by rw [same]), deed_resumed_same nothing⟩
  | some old =>
    have member : old ∈ w.tables.reservations := List.mem_of_find?_eq_some found
    have sameId : old.id = id := Tables.id_of_find found
    have present : w.tables.reservations.any (fun r => r.id = id) = true :=
      List.any_eq_true.mpr ⟨old, member, decide_eq_true sameId⟩
    have written : wrote (.db (.deleteReservation id), w) = some .cancelled := by
      simp [wrote, present]
    obtain ⟨before, done⟩ := deed_resumed_new (p := p) _ request unwritten written
    refine .inr ⟨_, before, done, trivial, ?_⟩
    rw [World.book_eq numbered, World.book_eq numbered']
    refine eval_atomic (.row old) ?_
    simp only [after, struck]
    exact if_pos ⟨(Tables.mem_book numbered).mpr member, sameId⟩

/-- **The step.**  A call of a request that finds what it has read changes nothing in the book,
or does the whole of what the request is for. -/
theorem commits_deed {call : Call} {k : Except Exn call.Reply → Async api Response} {c : Choice}
    {reply : Except Exn call.Reply} (proceeds : Proceeds cfg proc.request proc.history proc.prog)
    (numbered : w.tables.Numbered) (suspended : proc.prog = .await call k)
    (same : call.writes = true → ∀ step ∈ proc.history, readsSame w.tables step = true)
    (answered : (interp db).answer c call w = some (reply, w')) :
    w'.tables.Numbered ∧ (atomicBook cfg).CommitsAlone (fun _ _ => True) World.book deed w w' proc
      (proc.resumed call w (k reply)) := by
  cases writes : call.writes with
  | false =>
    obtain ⟨numbered', unchanged⟩ := book_of_reads writes answered numbered
    exact ⟨numbered', .inl ⟨unchanged, deed_resumed_same (wrote_of_reads writes)⟩⟩
  | true =>
    have current := same writes
    rw [suspended] at proceeds
    rcases call with (_ | _ | _ | _ | draft | id | _ | _) | call <;> try cases writes
    · obtain ⟨unwritten, m, request, intends⟩ := proceeds.saves draft rfl
      obtain ⟨-, -, after⟩ := interp_db.mp answered
      have after := congrArg World.tables after
      cases m with
      | createReservation data =>
        obtain ⟨s, customer, fetched, room, named, rfl⟩ := intends
        exact create_commits numbered request unwritten named room (current _ fetched) after
      | cancelReservation id => exact intends.elim
      | updateReservation data =>
        obtain ⟨s, old, looked, found, rfl⟩ := intends
        have now : w.tables.find data.id = s.tables.find data.id :=
          of_decide_eq_true (current _ looked)
        exact update_commits numbered request unwritten (now.trans found) after
    · obtain ⟨unwritten, request⟩ := proceeds.deletes id rfl
      obtain ⟨-, -, after⟩ := interp_db.mp answered
      exact cancel_commits numbered request unwritten (congrArg World.tables after)

theorem readsSame_of_steady {i : Nat} {c : Choice} {call : Call}
    {k : Except Exn call.Reply → Async api Response} (here : steady P (.resume i c) = true)
    (found : P.procs[i]? = some proc) (suspended : proc.prog = .await call k)
    (writes : call.writes = true) :
    ∀ step ∈ proc.history, readsSame P.shared.tables step = true := by
  simp only [steady, found, Option.all_some, suspended, Async.next?, Option.any_some, writes,
    Bool.not_true, Bool.false_or] at here
  exact List.all_eq_true.mp here

/-- The requests proceed as they should, and the rows are numbered as they should be. -/
def InOrder (db : QueryEngine) (cfg : Config) (P : Pool api Request World Response) : Prop :=
  P.Always (Proceeds cfg) (interp db) ∧ P.shared.tables.Numbered

theorem fire_inOrder {e : Event Request Choice String} (order : InOrder db cfg P)
    (here : steady P e = true) (fired : (server db cfg rounds).fire e P = some P') :
    InOrder db cfg P' := by
  refine ⟨Server.fire_always _ (fun r _ => request_proceeds r) fired order.1, ?_⟩
  rcases Server.fire_cases fired with ⟨r, -, rfl⟩ |
    ⟨i, c, proc, call, k, reply, s', rfl, found, suspended, answered, rfl⟩ | ⟨key, -, rfl⟩
  · exact order.2
  · have proceeds := (order.1 proc (List.mem_of_getElem? found)).here
    exact (commits_deed proceeds order.2 suspended
      (readsSame_of_steady here found suspended) answered).1
  · exact order.2

/-- **The service implements the book.**  In every interleaving of all kinds of requests in
which a request that writes finds what it has read about the reservations, the tables are
those of the book after the deeds of the requests, each done at once; and a request that has
ended reports what it has done, and nothing else. -/
theorem deeds_serialize (db : QueryEngine) (cfg : Config) (rounds : Nat) {w : World}
    {es : List (Event Request Choice String)} {P : Pool api Request World Response}
    (numbered : w.tables.Numbered) (ran : (server db cfg rounds).run es ⟨w, []⟩ = some P)
    (along : (server db cfg rounds).Along (fun Q e => steady Q e = true) es ⟨w, []⟩) :
    P.shared.tables.Numbered ∧
      (∃ log, (atomicBook cfg).Session (fun _ _ => True) w.book log P.shared.book ∧
        (P.procs.filterMap deed).Perm log) ∧
      ∀ proc ∈ P.procs, proc.prog.finished = true →
        (proc.history.filterMap wrote).head? = reportedDeed proc.prog := by
  have start : InOrder db cfg ⟨w, []⟩ := ⟨Pool.always_nil _, numbered⟩
  have order : InOrder db cfg P :=
    Server.run_preserves (InOrder db cfg) (fun held here fired => fire_inOrder held here fired) ran
      along start
  refine ⟨order.2, ?_, fun proc member => (order.1 proc member).here.reports⟩
  refine Server.run_serializes (W := atomicBook cfg) (Proceeds cfg) (fun _ => request_proceeds _)
    ?_ ?_
    (fun _ _ => World.book_congr rfl rfl) ran (along.strengthen fire_inOrder start)
    (Pool.always_nil _)
  · intro r
    cases r <;> rfl
  · intro Q i c proc call k reply s' always here found suspended answered
    have proceeds := (always proc (List.mem_of_getElem? found)).here
    exact (commits_deed proceeds here.2.2 suspended
      (readsSame_of_steady here.1 found suspended) answered).2

end Runs

/-! ## Two bookings, a change and a cancellation -/

/-- Two bookings for different dates run together, and so do a change of the first one and a
cancellation of the second one. -/
def bookedTogether : List (Event Request Choice String) :=
  let book (date : String) : Request := .mutation (.createReservation ⟨"Ada", date, "18:00", 4⟩)
  let nothing : Choice := .batch true []
  [.arrive (book "2025-03-10"), .resume 0 .reply, .resume 0 .reply, .arrive (book "2025-03-11"),
    .resume 1 .reply, .resume 0 .reply, .resume 1 .reply, .resume 1 .reply, .resume 0 .reply,
    .resume 0 nothing, .resume 1 nothing, .resume 1 nothing, .resume 0 nothing,
    .arrive (.mutation (.updateReservation
      ⟨2, .undefined, .undefined, .given "19:00", .undefined⟩)),
    .arrive (.mutation (.cancelReservation 1)), .resume 2 .reply, .resume 3 .reply,
    .resume 2 nothing, .resume 3 nothing, .resume 2 nothing, .resume 2 .reply, .resume 3 nothing]

theorem deeds_serialize_booked_together :
    ∃ P, (server .inMemory .default 0).run bookedTogether ⟨.empty, []⟩ = some P ∧
      P.shared.tables.reservations = [⟨⟨"19:00", 4⟩, 2, "2025-03-10", ⟨1, "Ada"⟩⟩] ∧
      P.shared.tables.Numbered ∧
      (∃ log, (atomicBook .default).Session (fun _ _ => True) World.empty.book log P.shared.book ∧
        (P.procs.filterMap deed).Perm log) ∧
      ∀ proc ∈ P.procs, proc.prog.finished = true →
        (proc.history.filterMap wrote).head? = reportedDeed proc.prog := by
  have checked : (((server .inMemory .default 0).checkedRun steady bookedTogether
      ⟨.empty, []⟩).any fun P => decide (P.shared.tables.reservations =
        [⟨⟨"19:00", 4⟩, 2, "2025-03-10", ⟨1, "Ada"⟩⟩])) = true := by
    decide +kernel
  obtain ⟨P, ran, seen⟩ := (Option.any_eq_true _ _).mp checked
  obtain ⟨ran, along⟩ := Server.of_checkedRun (fun _ _ holds => holds) ran
  exact ⟨P, ran, of_decide_eq_true seen,
    deeds_serialize .inMemory .default 0 (by decide) ran along⟩

end RestaurantAssistant
