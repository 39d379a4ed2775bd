import RestaurantAssistant.StoredRows

/-!
# The books balance

What the table of reservations holds once no request is in flight can be told from the
responses: the rows of the start and those that `createReservation` reported, without those
whose cancellation returned `true` (`books_balance`).  This is so for every interleaving of
every kind of request and for every row whose id no update names; no id is ever given out
twice, and no such row is cancelled twice.

The proof keeps the books from the requests' own calls: `savedRow` and `deletedId` are what
a call, in the state it met, enters and strikes out.
-/

namespace RestaurantAssistant

open Awaiting Js

variable {db : QueryEngine} {cfg : Config} {rounds : Nat}

/-! ## Entries and strikes -/

/-- The row a call inserts. -/
def savedRow : Call × World → Option Reservation
  | (.db (.saveReservation ⟨none, some date, some time, some guests, customer⟩), s) =>
    some ⟨⟨time, guests⟩, s.tables.nextReservation, date, customer⟩
  | _ => none

/-- The id whose row a call deletes. -/
def deletedId : Call × World → Option Int
  | (.db (.deleteReservation id), s) =>
    if s.tables.reservations.any (fun r => r.id = id) then some id else none
  | _ => none

/-- The row a request has reported as created. -/
def reportedRow : Async api Response → Option Reservation
  | .pure (.created out) => out.reservation
  | _ => none

/-- The id a request has reported as cancelled. -/
def reportedCancel : Request → Async api Response → Option Int
  | .mutation (.cancelReservation id), .pure (.cancelled true) => some id
  | _, _ => none

/-- Everything a call can do to the rows and the sequence of ids. -/
theorem rows_of_answer {call : Call} {c : Choice} {r : Except Exn call.Reply} {w w' : World}
    (answered : (interp db).answer c call w = some (r, w')) :
    (savedRow (call, w) = none ∧ deletedId (call, w) = none ∧
      w'.tables.reservations = w.tables.reservations ∧
      w'.tables.nextReservation = w.tables.nextReservation) ∨
    (∃ row, savedRow (call, w) = some row ∧ deletedId (call, w) = none ∧
      row.id = w.tables.nextReservation ∧
      w'.tables.reservations = w.tables.reservations ++ [row] ∧
      w'.tables.nextReservation = w.tables.nextReservation + 1) ∨
    (∃ id, savedRow (call, w) = none ∧ deletedId (call, w) = some id ∧
      (∃ row ∈ w.tables.reservations, row.id = id) ∧
      w'.tables.reservations = (w.tables.remove id).reservations ∧
      w'.tables.nextReservation = w.tables.nextReservation) ∨
    (∃ row draft, call = .db (.saveReservation draft) ∧ draft.id = some row.id ∧
      savedRow (call, w) = none ∧ deletedId (call, w) = none ∧
      w'.tables.reservations = (w.tables.put row).reservations ∧
      w'.tables.nextReservation = w.tables.nextReservation) := by
  have after := tables_of_answer answered
  cases call with
  | redis call =>
    refine .inl ⟨rfl, rfl, ?_⟩
    rw [after]
    cases call <;> exact ⟨rfl, rfl⟩
  | db call =>
    cases call with
    | saveReservation draft =>
      obtain ⟨id, date, time, guests, customer⟩ := draft
      -- a column that is null makes the database refuse the row
      rcases date with _ | date
      · exact .inl ⟨by cases id <;> rfl, rfl, by rw [after]; cases id <;> exact ⟨rfl, rfl⟩⟩
      rcases time with _ | time
      · exact .inl ⟨by cases id <;> rfl, rfl, by rw [after]; cases id <;> exact ⟨rfl, rfl⟩⟩
      rcases guests with _ | guests
      · exact .inl ⟨by cases id <;> rfl, rfl, by rw [after]; cases id <;> exact ⟨rfl, rfl⟩⟩
      rw [after]
      cases id with
      | none => exact .inr (.inl ⟨_, rfl, rfl, rfl, rfl, rfl⟩)
      | some id =>
        exact .inr (.inr (.inr ⟨⟨⟨time, guests⟩, id, date, customer⟩,
          _, rfl, rfl, rfl, rfl, rfl, rfl⟩))
    | deleteReservation id =>
      rw [after]
      by_cases there : w.tables.reservations.any (fun r => r.id = id) = true
      · refine .inr (.inr (.inl ⟨id, rfl, if_pos there, ?_, rfl, rfl⟩))
        simpa using there
      · refine .inl ⟨rfl, if_neg there, List.filter_eq_self.mpr fun r member => ?_, rfl⟩
        have other : r.id ≠ id := fun same =>
          there (List.any_eq_true.mpr ⟨r, member, by simpa using same⟩)
        simpa using other
    | _ => exact .inl ⟨rfl, rfl, by rw [after]; exact ⟨rfl, rfl⟩⟩

/-! ## What each request reports -/

/-- The step leaves no trace in the books. -/
def Silent (step : Call × World) : Prop := savedRow step = none ∧ deletedId step = none

theorem silent_of_reads {call : Call} {s : World} (reads : call.writes = false) :
    Silent (call, s) := by
  cases call with
  | redis call => exact ⟨rfl, rfl⟩
  | db call =>
    cases call with
    | saveReservation draft => cases reads
    | deleteReservation id => cases reads
    | _ => exact ⟨rfl, rfl⟩

theorem silent_of_clears {l : History api World} (steps : ∀ step ∈ l, Call.clears step.1 = true) :
    ∀ step ∈ l, Silent step :=
  fun step member => silent_of_reads (writes_of_clears (steps step member))

theorem filterMap_silent {l h : History api World} (silent : ∀ step ∈ l, Silent step) :
    (l ++ h).filterMap savedRow = h.filterMap savedRow ∧
      (l ++ h).filterMap deletedId = h.filterMap deletedId := by
  constructor
  · rw [List.filterMap_append, List.filterMap_eq_nil_iff.mpr fun step member =>
      (silent step member).1, List.nil_append]
  · rw [List.filterMap_append, List.filterMap_eq_nil_iff.mpr fun step member =>
      (silent step member).2, List.nil_append]

/-- The books of a request with one write. -/
theorem filterMap_written {l h : History api World} (step : Call × World)
    (after : ∀ step ∈ l, Silent step) (before : ∀ step ∈ h, Silent step) :
    (l ++ step :: h).filterMap savedRow = (savedRow step).toList ∧
      (l ++ step :: h).filterMap deletedId = (deletedId step).toList := by
  obtain ⟨rows, ids⟩ := filterMap_silent (h := step :: h) after
  obtain ⟨noRows, noIds⟩ := filterMap_silent (h := []) before
  rw [List.append_nil] at noRows noIds
  rw [rows, ids, List.filterMap_cons, List.filterMap_cons, noRows, noIds]
  constructor
  · cases savedRow step <;> rfl
  · cases deletedId step <;> rfl

variable {touched : Int → Bool} {r : Request} {h : History api World}

/-- Where a request stands: it writes over a row only if it is an update, and to an id it has
seen; and once it has ended, its response says what it has entered and struck out. -/
structure KeepsBooks (touched : Int → Bool) (r : Request) (h : History api World)
    (p : Async api Response) : Prop where
  puts : ∀ draft id, p.next? = some (.db (.saveReservation draft)) → draft.id = some id →
    touched id = true ∧ ∃ step ∈ h, ∃ row ∈ step.2.tables.reservations, row.id = id
  reports : p.finished = true → h.filterMap savedRow = (reportedRow p).toList ∧
    h.filterMap deletedId = (reportedCancel r p).toList

theorem KeepsBooks.awaits {call : Call} {k : Except Exn call.Reply → Async api Response}
    (noPut : ∀ draft, call = .db (.saveReservation draft) → draft.id = none) :
    KeepsBooks touched r h (.await call k) := by
  refine ⟨?_, ?_⟩
  · intro draft id next named
    rw [noPut draft (Option.some.inj next)] at named
    cases named
  · intro finished
    cases finished

theorem KeepsBooks.clearing {h₀ : History api World} {q : Async api Response}
    (clears : ClearingSince h₀ h q) (running : q.finished = false) : KeepsBooks touched r h q := by
  refine ⟨?_, ?_⟩
  · intro draft id next _
    cases clears.next _ next
  · intro finished
    rw [running] at finished
    cases finished

theorem KeepsBooks.ended {p : Async api Response} (next : p.next? = none)
    (reports : p.finished = true → h.filterMap savedRow = (reportedRow p).toList ∧
      h.filterMap deletedId = (reportedCancel r p).toList) : KeepsBooks touched r h p := by
  refine ⟨?_, reports⟩
  intro draft id saves _
  rw [next] at saves
  cases saves

/-- A request that ends without having written. -/
theorem KeepsBooks.nothing {p : Async api Response} (silent : ∀ step ∈ h, Silent step)
    (next : p.next? = none) (row : reportedRow p = none) (cancel : reportedCancel r p = none) :
    KeepsBooks touched r h p := by
  refine .ended next fun _ => ?_
  have none := filterMap_silent (h := []) silent
  rw [List.append_nil] at none
  rw [none.1, none.2, row, cancel]
  exact ⟨rfl, rfl⟩

theorem silent_cons {call : Call} {s : World} (silent : ∀ step ∈ h, Silent step)
    (reads : call.writes = false) : ∀ step ∈ (call, s) :: h, Silent step := by
  intro step member
  rcases List.mem_cons.mp member with rfl | member
  · exact silent_of_reads reads
  · exact silent step member

theorem createFor_keepsBooks {data : CreateReservationInput} {customer : Customer}
    (silent : ∀ step ∈ h, Silent step) :
    ((createFor cfg rounds data customer).tryCatch createFailed >>= fun x =>
      .pure (.created x)).Always (interp db)
        (KeepsBooks touched (.mutation (.createReservation data))) h := by
  unfold createFor
  refine always_db (.awaits fun _ same => by cases same) fun s => ?_
  have reading : ∀ step ∈ ((.db (.findReservations data.date) : Call), s) :: h, Silent step :=
    silent_cons silent rfl
  simp only [Tables.answer, ofExcept_ok]
  change Async.Always _ _ (((if _ then _ else _ : Async api _).tryCatch createFailed) >>= _) _
  split
  · refine always_db (.awaits fun draft same => by cases same; rfl) fun s' => ?_
    refine clear_then_always (fun _ _ => .clearing) fun l steps _ => ?_
    exact .ended rfl fun _ => filterMap_written _ (silent_of_clears steps) reading
  · generalize findNearestAvailableSlots _ _ _ _ _ _ = nearest
    rcases nearest with _ | _ | _
    · exact .nothing reading rfl rfl rfl
    · exact .nothing reading rfl rfl rfl
    · exact .nothing reading rfl rfl rfl

theorem create_keepsBooks {data : CreateReservationInput} :
    ((Mutation.createReservation data).handle cfg rounds).Always (interp db)
      (KeepsBooks touched (.mutation (.createReservation data))) [] := by
  refine always_db (.awaits fun _ same => by cases same) fun s => ?_
  have start : ∀ step ∈ ([] : History api World), Silent step := fun _ member => by cases member
  have looked : ∀ step ∈ [((.db (.findCustomer data.customerName) : Call), s)], Silent step :=
    silent_cons start rfl
  simp only [Tables.answer]
  cases s.tables.customers.find? fun c => c.name = data.customerName with
  | some customer => exact createFor_keepsBooks looked
  | none =>
    refine always_db (.awaits fun _ same => by cases same) fun s' => ?_
    exact createFor_keepsBooks (silent_cons looked rfl)

theorem cancel_keepsBooks (cfg : Config) {id : Int} :
    ((Mutation.cancelReservation id).handle cfg rounds).Always (interp db)
      (KeepsBooks touched (.mutation (.cancelReservation id))) [] := by
  refine always_db (.awaits fun _ same => by cases same) fun s => ?_
  have start : ∀ step ∈ ([] : History api World), Silent step := fun _ member => by cases member
  have deletes : deletedId (.db (.deleteReservation id), s) =
      if s.tables.reservations.countP (fun r => r.id = id) = 0 then none else some id := by
    change (if s.tables.reservations.any (fun r => r.id = id) then some id else none) = _
    by_cases missing : s.tables.reservations.countP (fun r => r.id = id) = 0
    · rw [if_pos missing, if_neg]
      simpa using List.countP_eq_zero.mp missing
    · rw [if_neg missing, if_pos]
      simpa using List.countP_pos_iff.mp (Nat.pos_of_ne_zero missing)
  simp only [Tables.answer]
  change Async.Always _ _ (((if _ then _ else _ : Async api _).tryCatch _) >>= _) _
  split
  · rename_i missing
    rw [if_pos missing] at deletes
    refine .ended rfl fun _ => ?_
    obtain ⟨rows, ids⟩ := filterMap_written (.db (.deleteReservation id), s) start start
    rw [deletes] at ids
    exact ⟨rows, ids⟩
  · rename_i present
    rw [if_neg present] at deletes
    refine clear_then_always (fun _ _ => .clearing) fun l steps _ => ?_
    refine .ended rfl fun _ => ?_
    obtain ⟨rows, ids⟩ :=
      filterMap_written (.db (.deleteReservation id), s) (silent_of_clears steps) start
    rw [deletes] at ids
    exact ⟨rows, ids⟩

theorem update_keepsBooks (cfg : Config) {data : UpdateReservationInput}
    (names : touched data.id = true) :
    ((Mutation.updateReservation data).handle cfg rounds).Always (interp db)
      (KeepsBooks touched (.mutation (.updateReservation data))) [] := by
  refine always_db (.awaits fun _ same => by cases same) fun s => ?_
  have start : ∀ step ∈ ([] : History api World), Silent step := fun _ member => by cases member
  have looked : ∀ step ∈ [((.db (.findReservation data.id) : Call), s)], Silent step :=
    silent_cons start rfl
  simp only [Tables.answer]
  cases found : s.tables.find data.id with
  | none => exact .nothing looked rfl rfl rfl
  | some old =>
    refine clear_then_always (fun _ _ => .clearing) fun l steps _ => ?_
    refine always_db ⟨?_, fun finished => by cases finished⟩ fun s' => ?_
    · intro draft id next named
      cases next
      cases named
      exact ⟨names, (.db (.findReservation data.id), s), by simp, old,
        List.mem_of_find?_eq_some found, Tables.id_of_find found⟩
    · have silent : ∀ step ∈ (((.db (.saveReservation (assign old data)) : Call), s') ::
          (l ++ [(.db (.findReservation data.id), s)])), Silent step := by
        intro step member
        rcases List.mem_cons.mp member with rfl | member
        · exact ⟨rfl, rfl⟩
        · rcases List.mem_append.mp member with member | member
          · exact silent_of_clears steps step member
          · exact looked step member
      rw [answer_save_assign]
      cases old.updated data with
      | some new => exact .nothing silent rfl rfl rfl
      | none => exact .nothing silent rfl rfl rfl

/-! Queries make no writing call, whatever their times are. -/

def readsAt (call : Call) (Q : Except Exn call.Reply → Prop) : Prop :=
  call.writes = false ∧ ∀ r, Q r

/-- A response to a query, or an exception. -/
def QueryEnds (out : Except Exn Response) : Prop := ∀ a, out = .ok a → ∃ value, a = .queried value

/-- Every call of the program is a reading one, and it ends with a query's response. -/
def OnlyReads (p : Async api Response) : Prop := p.wp readsAt QueryEnds

theorem onlyReads_query (q : Query) : OnlyReads ((Request.query q).handle cfg rounds) := by
  have returned : ∀ out, QueryEnds (.ok (.queried out)) := by
    intro out a same
    cases same
    exact ⟨out, rfl⟩
  have thrown : ∀ e, QueryEnds (.error e) := by
    intro e a same
    cases same
  have stores : ∀ key value (e : Exn), OnlyReads ((redisService.set key value 300 >>= fun _ =>
      .pure value).tryCatch (fun _ => .throw e) >>= fun out => .pure (.queried out)) := by
    intro key value e
    refine ⟨rfl, fun stored => ?_⟩
    cases stored with
    | error e => exact thrown _
    | ok stored => exact returned value
  -- a failed call makes the query throw
  cases q with
  | getReservations filter pagination sort =>
    refine ⟨rfl, fun found => ?_⟩
    rcases found with e | _ | out
    · exact thrown _
    · refine ⟨rfl, fun items => ?_⟩
      cases items with
      | error e => exact thrown _
      | ok items =>
        refine ⟨rfl, fun count => ?_⟩
        cases count with
        | error e => exact thrown _
        | ok count => exact stores _ _ _
    · exact returned out
  | checkAvailability data =>
    unfold Request.handle Query.handle checkAvailability
    refine ⟨rfl, fun found => ?_⟩
    rcases found with e | _ | out
    · exact thrown _
    · refine ⟨rfl, fun rows => ?_⟩
      cases rows with
      | error e => exact thrown _
      | ok rows =>
        simp only [ofExcept_ok, Async.bind]
        rcases data.time.text with _ | time
        · rcases data.timeRange with _ | _ | range
          · exact returned _
          · exact returned _
          · simp only
            generalize findAvailableSlots _ _ _ _ _ _ _ = slots
            cases slots with
            | none => trivial
            | some slots => exact stores _ _ _
        · exact stores _ _ _
    · exact returned out

theorem OnlyReads.keepsBooks {p : Async api Response} {q : Query} (reads : OnlyReads p)
    (silent : ∀ step ∈ h, Silent step) :
    p.Always (interp db) (KeepsBooks touched (.query q)) h := by
  induction p generalizing h with
  | pure a =>
    obtain ⟨value, rfl⟩ := reads a rfl
    exact .nothing silent rfl rfl rfl
  | throw e => exact .nothing silent rfl rfl rfl
  | diverge => exact .nothing silent rfl rfl rfl
  | await call k ih =>
    refine ⟨.awaits ?_, fun c s r s' _ => ih r (reads.2 r) (silent_cons silent reads.1)⟩
    rintro draft rfl
    cases reads.1

/-- Does the request name this id only if it may? -/
def Request.updatesWithin (touched : Int → Bool) : Request → Bool
  | .mutation (.updateReservation data) => touched data.id
  | _ => true

theorem request_keepsBooks (within : r.updatesWithin touched = true) :
    (r.handle cfg rounds).Always (interp db) (KeepsBooks touched r) [] := by
  rcases r with q | data | id | data
  · exact (onlyReads_query q).keepsBooks fun _ member => by cases member
  · exact create_keepsBooks
  · exact cancel_keepsBooks cfg
  · exact update_keepsBooks cfg within

/-! ## The books of a pool -/

variable {P P' : Pool api Request World Response} {w : World}

/-- The rows entered by the requests. -/
def entered (P : Pool api Request World Response) : List Reservation :=
  P.procs.flatMap fun proc => proc.history.filterMap savedRow

/-- The ids struck out by the requests. -/
def struck (P : Pool api Request World Response) : List Int :=
  P.procs.flatMap fun proc => proc.history.filterMap deletedId

/-- The rows there have ever been, under the ids they were given. -/
def everEntered (w : World) (P : Pool api Request World Response) : List Reservation :=
  w.tables.reservations ++ entered P

theorem flatMap_resumed {β : Type} {f : Call × World → Option β} {i : Nat}
    {proc : Proc api Request World Response} {call : Call} {s : World} {rest : Async api Response}
    (found : P.procs[i]? = some proc) :
    ((P.procs.set i (proc.resumed call s rest)).flatMap fun proc => proc.history.filterMap f).Perm
      ((f (call, s)).toList ++ P.procs.flatMap fun proc => proc.history.filterMap f) := by
  obtain ⟨before, after, rows, replaced⟩ := Pool.split found
  have step : (proc.resumed call s rest).history.filterMap f =
      (f (call, s)).toList ++ proc.history.filterMap f := by
    rw [Proc.resumed, List.filterMap_cons]
    cases f (call, s) <;> rfl
  rw [replaced, rows]
  simp only [List.flatMap_append, List.flatMap_cons, step, List.append_assoc]
  exact List.perm_append_comm_assoc _ _ _

theorem everEntered_resumed {i : Nat} {proc : Proc api Request World Response} {call : Call}
    {s s' : World} {rest : Async api Response} (found : P.procs[i]? = some proc) :
    (everEntered w ⟨s', P.procs.set i (proc.resumed call s rest)⟩).Perm
      ((savedRow (call, s)).toList ++ everEntered w P) := by
  unfold everEntered
  refine ((flatMap_resumed found).append_left _).trans ?_
  exact List.perm_append_comm_assoc _ _ _

/-- The ids of these rows have been given out. -/
def Known (ever rows : List Reservation) : Prop := ∀ row ∈ rows, ∃ old ∈ ever, old.id = row.id

theorem Known.mono {ever ever' rows : List Reservation} (known : Known ever rows)
    (more : ∀ row ∈ ever, row ∈ ever') : Known ever' rows := by
  intro row member
  obtain ⟨old, was, same⟩ := known row member
  exact ⟨old, more old was, same⟩

theorem Tables.mem_put_of_ne {T : Tables} {r row : Reservation} (other : row.id ≠ r.id) :
    row ∈ (T.put r).reservations ↔ row ∈ T.reservations := by
  unfold Tables.put
  split
  · rw [List.mem_map]
    constructor
    · rintro ⟨old, was, same⟩
      split at same
      · exact absurd (congrArg Reservation.id same).symm other
      · rwa [← same]
    · intro was
      exact ⟨row, was, if_neg other⟩
  · have apart : row ≠ r := fun same => other (congrArg Reservation.id same)
    simp [apart]

theorem Tables.put_distinct {T : Tables} {r : Reservation}
    (distinct : (T.reservations.map Reservation.id).Nodup) :
    ((T.put r).reservations.map Reservation.id).Nodup := by
  unfold Tables.put
  split
  · have same : (Reservation.id ∘ fun row => if row.id = r.id then r else row) =
        Reservation.id := by
      funext row
      simp only [Function.comp_apply]
      split
      · rename_i hit
        exact hit.symm
      · rfl
    rw [List.map_map, same]
    exact distinct
  · rename_i absent
    rw [List.map_append, List.map_singleton]
    refine List.nodup_append.mpr ⟨distinct, List.nodup_singleton _, ?_⟩
    intro id member id' single
    cases List.mem_singleton.mp single
    obtain ⟨row, was, rfl⟩ := List.mem_map.mp member
    intro same
    exact absent (List.any_eq_true.mpr ⟨row, was, by simpa using same⟩)

/-- The books, with the rows ever entered and the ids struck out, agree with the table. -/
structure Ledger (touched : Int → Bool) (ever : List Reservation) (struck : List Int) (T : Tables) :
    Prop where
  issued : (ever.map Reservation.id).Nodup
  below : ∀ row ∈ ever, row.id < T.nextReservation
  distinct : (T.reservations.map Reservation.id).Nodup
  known : Known ever T.reservations
  rows : ∀ row : Reservation, touched row.id = false →
    (row ∈ T.reservations ↔ row ∈ ever ∧ row.id ∉ struck)
  strikes : ∀ id ∈ struck, ∃ old ∈ ever, old.id = id
  once : (struck.filter fun id => !touched id).Nodup

section OneStep

variable {ever ever' : List Reservation} {struck struck' : List Int} {T T' : Tables}

theorem Ledger.congr (books : Ledger touched ever struck T) (same : ever'.Perm ever)
    (sameStruck : struck'.Perm struck) (rows : T'.reservations = T.reservations)
    (next : T'.nextReservation = T.nextReservation) : Ledger touched ever' struck' T' where
  issued := ((same.map _).nodup_iff).mpr books.issued
  below row member := next ▸ books.below row (same.mem_iff.mp member)
  distinct := rows ▸ books.distinct
  known := rows ▸ books.known.mono fun _ => same.mem_iff.mpr
  rows row other := by rw [rows, books.rows row other, same.mem_iff, sameStruck.mem_iff]
  strikes id member := by
    obtain ⟨old, was, named⟩ := books.strikes id (sameStruck.mem_iff.mp member)
    exact ⟨old, same.mem_iff.mpr was, named⟩
  once := ((sameStruck.filter _).nodup_iff).mpr books.once

/-- A row is inserted under the next id. -/
theorem Ledger.enter {row : Reservation} (books : Ledger touched ever struck T)
    (id : row.id = T.nextReservation) (rows : T'.reservations = T.reservations ++ [row])
    (next : T'.nextReservation = T.nextReservation + 1) :
    Ledger touched (row :: ever) struck T' where
  issued := by
    rw [List.map_cons, List.nodup_cons]
    refine ⟨fun member => ?_, books.issued⟩
    obtain ⟨old, was, same⟩ := List.mem_map.mp member
    have := books.below old was
    omega
  below old member := by
    rcases List.mem_cons.mp member with rfl | member
    · omega
    · have := books.below old member
      omega
  distinct := by
    rw [rows, List.map_append, List.map_singleton]
    refine List.nodup_append.mpr ⟨books.distinct, List.nodup_singleton _, ?_⟩
    intro id' member single isSingle same
    obtain ⟨row', was, rfl⟩ := List.mem_map.mp member
    cases List.mem_singleton.mp isSingle
    obtain ⟨old, older, named⟩ := books.known row' was
    have := books.below old older
    omega
  known := by
    rw [rows]
    intro row' member
    rcases List.mem_append.mp member with was | new
    · obtain ⟨old, older, named⟩ := books.known row' was
      exact ⟨old, List.mem_cons_of_mem row older, named⟩
    · cases List.mem_singleton.mp new
      exact ⟨row, List.mem_cons_self, rfl⟩
  rows row' other := by
    have fresh : row.id ∉ struck := by
      intro member
      obtain ⟨old, was, named⟩ := books.strikes _ member
      have := books.below old was
      omega
    rw [rows, List.mem_append, List.mem_singleton, List.mem_cons, books.rows row' other]
    constructor
    · rintro (⟨was, kept⟩ | rfl)
      · exact ⟨.inr was, kept⟩
      · exact ⟨.inl rfl, fresh⟩
    · rintro ⟨rfl | was, kept⟩
      · exact .inr rfl
      · exact .inl ⟨was, kept⟩
  strikes id' member := by
    obtain ⟨old, was, named⟩ := books.strikes id' member
    exact ⟨old, List.mem_cons_of_mem row was, named⟩
  once := books.once

/-- The row with an id is deleted. -/
theorem Ledger.strike {id : Int} (books : Ledger touched ever struck T)
    (there : ∃ row ∈ T.reservations, row.id = id)
    (rows : T'.reservations = (T.remove id).reservations)
    (next : T'.nextReservation = T.nextReservation) : Ledger touched ever (id :: struck) T' where
  issued := books.issued
  below row member := next ▸ books.below row member
  distinct := by
    rw [rows]
    exact books.distinct.sublist (List.filter_sublist.map _)
  known := by
    rw [rows]
    intro row member
    exact books.known row (List.mem_filter.mp member).1
  rows row other := by
    rw [rows, Tables.remove, List.mem_filter, books.rows row other, List.mem_cons, not_or,
      decide_eq_true_iff]
    constructor
    · rintro ⟨⟨was, kept⟩, apart⟩
      exact ⟨was, apart, kept⟩
    · rintro ⟨was, apart, kept⟩
      exact ⟨⟨was, kept⟩, apart⟩
  strikes id' member := by
    rcases List.mem_cons.mp member with rfl | member
    · obtain ⟨row, was, rfl⟩ := there
      exact books.known row was
    · exact books.strikes id' member
  once := by
    rw [List.filter_cons]
    split
    · rename_i other
      obtain ⟨row, was, rfl⟩ := there
      have untouched : touched row.id = false := by simpa using other
      have kept := ((books.rows row untouched).mp was).2
      refine List.nodup_cons.mpr ⟨fun member => ?_, books.once⟩
      exact kept (List.mem_filter.mp member).1
    · exact books.once

/-- The row of an update is written over. -/
theorem Ledger.overwrite {row : Reservation} (books : Ledger touched ever struck T)
    (named : touched row.id = true) (seen : ∃ old ∈ ever, old.id = row.id)
    (rows : T'.reservations = (T.put row).reservations)
    (next : T'.nextReservation = T.nextReservation) : Ledger touched ever struck T' where
  issued := books.issued
  below row member := next ▸ books.below row member
  distinct := rows ▸ Tables.put_distinct books.distinct
  known := by
    rw [rows]
    intro row' member
    rcases Tables.mem_put member with was | rfl
    · exact books.known row' was
    · exact seen
  rows row' other := by
    have apart : row'.id ≠ row.id := by
      intro same
      rw [same, named] at other
      cases other
    rw [rows, Tables.mem_put_of_ne apart, books.rows row' other]
  strikes := books.strikes
  once := books.once

end OneStep

/-- The books of the pool agree with its table, and no request has met a row whose id was
not given out. -/
structure Balanced (touched : Int → Bool) (w : World) (P : Pool api Request World Response) :
    Prop where
  ledger : Ledger touched (everEntered w P) (struck P) P.shared.tables
  met : ∀ proc ∈ P.procs, ∀ step ∈ proc.history,
    Known (everEntered w P) step.2.tables.reservations

theorem ledger_resume {i : Nat} {c : Choice} {proc : Proc api Request World Response} {call : Call}
    {k : Except Exn call.Reply → Async api Response} {r : Except Exn call.Reply} {s' : World}
    (balanced : Balanced touched w P) (found : P.procs[i]? = some proc)
    (stands : KeepsBooks touched proc.request proc.history (.await call k))
    (answered : (interp db).answer c call P.shared = some (r, s')) :
    let P' : Pool api Request World Response :=
      ⟨s', P.procs.set i (proc.resumed call P.shared (k r))⟩
    Ledger touched (everEntered w P') (struck P') s'.tables := by
  intro P'
  have ever : (everEntered w P').Perm _ := everEntered_resumed found
  have strikes : (struck P').Perm _ := flatMap_resumed found
  rcases rows_of_answer answered with ⟨saved, deleted, rows, next⟩ |
    ⟨row, saved, deleted, id, rows, next⟩ | ⟨id, saved, deleted, there, rows, next⟩ |
    ⟨row, draft, rfl, named, saved, deleted, rows, next⟩
  all_goals rw [saved] at ever; rw [deleted] at strikes
  · exact balanced.ledger.congr ever strikes rows next
  · exact (balanced.ledger.enter id rows next).congr ever strikes rfl rfl
  · exact (balanced.ledger.strike there rows next).congr ever strikes rfl rfl
  · obtain ⟨touches, step, earlier, old, was, same⟩ := stands.puts draft row.id rfl named
    have seen : ∃ old ∈ everEntered w P, old.id = row.id := by
      obtain ⟨first, member, known⟩ :=
        balanced.met proc (List.mem_of_getElem? found) step earlier old was
      exact ⟨first, member, known.trans same⟩
    exact (balanced.ledger.overwrite touches seen rows next).congr ever strikes rfl rfl

theorem balanced_step {e : Event Request Choice String}
    (stands : P.Always (KeepsBooks touched) (interp db)) (balanced : Balanced touched w P)
    (fired : (server db cfg rounds).fire e P = some P') : Balanced touched w P' := by
  rcases Server.fire_cases fired with ⟨r, rfl, rfl⟩ |
    ⟨i, c, proc, call, k, r, s', rfl, found, suspended, answered, rfl⟩ | ⟨key, rfl, rfl⟩
  · -- a request that has just arrived has an empty history
    have ever : everEntered w { P with procs := P.procs ++ [⟨r, [], r.handle cfg rounds⟩] } =
        everEntered w P := by simp [everEntered, entered]
    have strikes : struck { P with procs := P.procs ++ [⟨r, [], r.handle cfg rounds⟩] } =
        struck P := by simp [struck]
    refine ⟨?_, ?_⟩
    · exact balanced.ledger.congr (.of_eq ever) (.of_eq strikes) rfl rfl
    · intro proc member
      rcases List.mem_append.mp member with member | member
      · exact fun step within => (balanced.met proc member step within).mono fun _ =>
          (congrArg (_ ∈ ·) ever).mpr
      · cases List.mem_singleton.mp member
        intro step within
        cases within
  · have here := (stands proc (List.mem_of_getElem? found)).here
    rw [suspended] at here
    have more : ∀ row ∈ everEntered w P, row ∈ everEntered w
        ⟨s', P.procs.set i (proc.resumed call P.shared (k r))⟩ := by
      intro row member
      exact (everEntered_resumed found).mem_iff.mpr (List.mem_append_right _ member)
    refine ⟨ledger_resume balanced found here answered, ?_⟩
    intro other member step within
    rcases List.mem_or_eq_of_mem_set member with member | rfl
    · exact (balanced.met other member step within).mono more
    · rcases List.mem_cons.mp within with rfl | within
      · exact balanced.ledger.known.mono more
      · exact (balanced.met proc (List.mem_of_getElem? found) step within).mono more
  · exact ⟨balanced.ledger, balanced.met⟩

/-- When no request is in flight, the books are what the responses say. -/
theorem reported_of_quiet (stands : P.Always (KeepsBooks touched) (interp db)) (quiet : P.Quiet) :
    entered P = P.procs.filterMap (fun proc => reportedRow proc.prog) ∧
      struck P = P.procs.filterMap fun proc => reportedCancel proc.request proc.prog := by
  have reports : ∀ proc ∈ P.procs,
      proc.history.filterMap savedRow = (reportedRow proc.prog).toList ∧
        proc.history.filterMap deletedId = (reportedCancel proc.request proc.prog).toList :=
    fun proc member => (stands proc member).here.reports (quiet proc member)
  unfold entered struck
  rw [List.filterMap_eq_flatMap_toList, List.filterMap_eq_flatMap_toList]
  constructor
  · exact List.flatMap_congr fun proc member => (reports proc member).1
  · exact List.flatMap_congr fun proc member => (reports proc member).2

/-- **The books balance.**  However requests of all kinds interleave: once none is in flight,
a row whose id no update names is in the table exactly if it was there at the start or was
reported as created, and no cancellation of its id has returned `true`; and at most one has.
No id was given out twice, and the table has no id twice and none that was not given out. -/
theorem books_balance {es : List (Event Request Choice String)} (numbered : w.tables.Numbered)
    (within : ∀ r, .arrive r ∈ es → r.updatesWithin touched = true)
    (ran : (server db cfg rounds).run es ⟨w, []⟩ = some P) (quiet : P.Quiet) :
    let ever := w.tables.reservations ++ P.procs.filterMap fun proc => reportedRow proc.prog
    let cancelled := P.procs.filterMap fun proc => reportedCancel proc.request proc.prog
    (∀ row : Reservation, touched row.id = false →
      (row ∈ P.shared.tables.reservations ↔ row ∈ ever ∧ row.id ∉ cancelled)) ∧
    (cancelled.filter fun id => !touched id).Nodup ∧
    (ever.map Reservation.id).Nodup ∧
    (P.shared.tables.reservations.map Reservation.id).Nodup ∧
    ∀ row ∈ P.shared.tables.reservations, ∃ first ∈ ever, first.id = row.id := by
  intro ever cancelled
  have start : Balanced touched w (⟨w, []⟩ : Pool api Request World Response) := by
    have all : everEntered w (⟨w, []⟩ : Pool api Request World Response) =
        w.tables.reservations := List.append_nil _
    refine ⟨?_, fun proc member => by cases member⟩
    rw [all]
    refine ⟨numbered.distinct, numbered.unused, numbered.distinct, ?_, ?_, ?_, List.nodup_nil⟩
    · intro row member
      exact ⟨row, member, rfl⟩
    · intro row _
      exact ⟨fun member => ⟨member, List.not_mem_nil⟩, fun both => both.1⟩
    · intro id member
      cases member
  have along : (server db cfg rounds).Along
      (fun _ e => ∀ r, e = .arrive r → r.updatesWithin touched = true) es ⟨w, []⟩ :=
    .of_forall fun e member _ r same => within r (same ▸ member)
  have run : P.Always (KeepsBooks touched) (interp db) ∧ Balanced touched w P := by
    refine Server.run_preserves_always (KeepsBooks touched) (Balanced touched w) ?_ ?_ ran along
      (Pool.always_nil _) start
    · intro Q r permitted
      exact request_keepsBooks (permitted r rfl)
    · intro Q e Q' stands balanced _ fired
      exact balanced_step stands balanced fired
  obtain ⟨stands, balanced⟩ := run
  obtain ⟨rows, ids⟩ := reported_of_quiet stands quiet
  have ledger := balanced.ledger
  rw [everEntered, rows, ids] at ledger
  exact ⟨ledger.rows, ledger.once, ledger.issued, ledger.distinct, ledger.known⟩

/-- Two tables are booked, the first is cancelled twice at once, and the second is moved: the
second cancellation fails, and the first row is gone. -/
theorem books_balance_two_cancellations :
    let es : List (Event Request Choice String) :=
      [.arrive (.mutation (.createReservation ⟨"Ada", "2025-03-10", "18:00", 2⟩)),
        .arrive (.mutation (.createReservation ⟨"Ada", "2025-03-10", "18:00", 2⟩)),
        .resume 0 .reply, .resume 0 .reply, .resume 1 .reply, .resume 0 .reply, .resume 1 .reply,
        .resume 0 .reply, .resume 1 .reply,
        .arrive (.mutation (.cancelReservation 1)), .arrive (.mutation (.cancelReservation 1)),
        .arrive (.mutation (.updateReservation
          ⟨2, .undefined, .undefined, .given "20:00", .undefined⟩)),
        .resume 4 .reply, .resume 3 .reply, .resume 2 .reply,
        .resume 0 (.batch true []), .resume 0 (.batch true []), .resume 1 (.batch true []),
        .resume 1 (.batch true []), .resume 3 (.batch true []), .resume 3 (.batch true []),
        .resume 4 (.batch true []), .resume 4 (.batch true []), .resume 4 .reply]
    ∃ P, (server .inMemory .default 0).run es ⟨.empty, []⟩ = some P ∧
      ∀ row : Reservation, row.id ≠ 2 → row ∉ P.shared.tables.reservations := by
  intro es
  have result : ((server .inMemory .default 0).run es ⟨.empty, []⟩).map (fun P =>
      (P.procs.all fun proc => proc.prog.finished,
        P.procs.filterMap fun proc => reportedRow proc.prog,
        P.procs.filterMap fun proc => reportedCancel proc.request proc.prog)) =
      some (true, [⟨⟨"18:00", 2⟩, 1, "2025-03-10", ⟨1, "Ada"⟩⟩,
        ⟨⟨"18:00", 2⟩, 2, "2025-03-10", ⟨1, "Ada"⟩⟩], [1]) := by
    decide +kernel
  obtain ⟨P, ran, same⟩ := Option.map_eq_some_iff.mp result
  obtain ⟨finished, rows, ids⟩ : _ ∧ _ ∧ _ := by simpa only [Prod.mk.injEq] using same
  have numbered : World.empty.tables.Numbered := by
    refine ⟨List.nodup_nil, fun r member => ?_⟩
    cases member
  have within : ∀ r, Event.arrive r ∈ es → r.updatesWithin (fun id => id == 2) = true := by
    intro r member
    simp only [es, List.mem_cons, Event.arrive.injEq, reduceCtorEq, false_or, or_false,
      List.not_mem_nil] at member
    rcases member with rfl | rfl | rfl | rfl | rfl <;> rfl
  refine ⟨P, ran, fun row other there => ?_⟩
  have balance := (books_balance numbered within ran (List.all_eq_true.mp finished)).1 row
    (by simpa using other)
  rw [rows, ids] at balance
  obtain ⟨entered, kept⟩ := balance.mp there
  rcases List.mem_cons.mp entered with rfl | entered
  · exact kept List.mem_cons_self
  · cases List.mem_singleton.mp entered
    exact other rfl

end RestaurantAssistant
