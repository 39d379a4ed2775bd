import RestaurantAssistant.Interleaving

/-!
# Two updates of one reservation

`updateReservation` reads the row, clears the cache and saves the whole row.  Two
updates that set different fields of one reservation both take effect, in any
interleaving, if each saves while the row is as it read it (`no_update_lost`);
otherwise the later save undoes the earlier one (`later_save_undoes_earlier`).
-/

namespace RestaurantAssistant

open Awaiting Js

variable {db : QueryEngine} {cfg : Config} {rounds : Nat} {a b data : UpdateReservationInput}

/-! ## What an update does to a row -/

/-- A `null` for a column is refused by the database. -/
def UpdateReservationInput.refused (data : UpdateReservationInput) : Bool :=
  data.date = .null || data.time = .null || data.guests = .null

/-- The row after the update. -/
def Reservation.overwrite (r : Reservation) (data : UpdateReservationInput) : Reservation :=
  if data.refused then r
  else ⟨⟨data.time.overlay r.time, data.guests.overlay r.guests⟩, data.id, data.date.overlay r.date,
    r.customer⟩

theorem updated_eq (r : Reservation) :
    r.updated data = if data.refused then none else some (r.overwrite data) := by
  obtain ⟨id, name, date, time, guests⟩ := data
  rcases date with _ | _ | date <;> rcases time with _ | _ | time <;>
    rcases guests with _ | _ | guests <;> rfl

/-- No field is set by both. -/
structure UpdateReservationInput.Separate (a b : UpdateReservationInput) : Prop where
  date : a.date = .undefined ∨ b.date = .undefined
  time : a.time = .undefined ∨ b.time = .undefined
  guests : a.guests = .undefined ∨ b.guests = .undefined

theorem UpdateReservationInput.Separate.symm (separate : a.Separate b) : b.Separate a :=
  ⟨separate.date.symm, separate.time.symm, separate.guests.symm⟩

theorem overwrite_comm {r : Reservation} (sameId : b.id = a.id) (separate : a.Separate b) :
    (r.overwrite a).overwrite b = (r.overwrite b).overwrite a := by
  unfold Reservation.overwrite
  by_cases refusedA : a.refused = true
  · rw [if_pos refusedA, if_pos refusedA]
  · rw [if_neg refusedA, if_neg refusedA]
    by_cases refusedB : b.refused = true
    · rw [if_pos refusedB, if_pos refusedB]
    · rw [if_neg refusedB, if_neg refusedB]
      simp only [sameId, Arg.overlay_comm _ separate.date, Arg.overlay_comm _ separate.time,
        Arg.overlay_comm _ separate.guests]

/-- What is written under an id is found under it. -/
theorem Tables.find_put {T : Tables} {r : Reservation} : (T.put r).find r.id = some r := by
  unfold Tables.put Tables.find
  simp only
  split
  · rename_i present
    obtain ⟨row, member, same⟩ := List.any_eq_true.mp present
    generalize T.reservations = rows at member
    induction rows with
    | nil => cases member
    | cons first rows ih =>
      rw [List.map_cons]
      by_cases here : first.id = r.id
      · rw [if_pos here, List.find?_cons_of_pos (by simp)]
      · rw [if_neg here, List.find?_cons_of_neg (by simpa using here)]
        rcases List.mem_cons.mp member with rfl | later
        · exact absurd (of_decide_eq_true same) here
        · exact ih later
  · rename_i absent
    rw [List.find?_append]
    have missing : T.reservations.find? (fun row => row.id = r.id) = none := by
      rw [List.find?_eq_none]
      intro row member same
      exact absent (List.any_eq_true.mpr ⟨row, member, same⟩)
    rw [missing]
    simp

/-! ## Where an update stands -/

/-- An update that has returned has saved its row. -/
theorem update_returns (cfg : Config) (data : UpdateReservationInput) :
    ((Mutation.updateReservation data).handle cfg rounds).Always (interp db)
      (fun h p => ∀ response, p = .pure response → Wrote h ∧ data.refused = false) [] := by
  refine always_db (fun response same => by cases same) fun s => ?_
  simp only [Tables.answer]
  cases s.tables.find data.id with
  | none =>
    intro response same
    cases same
  | some old =>
    refine clear_then_always ?_ ?_
    · intro h q _ suspended response same
      rw [same] at suspended
      cases suspended
    · intro l _ _
      refine always_db (fun response same => by cases same) fun s' => ?_
      rw [answer_save_assign, updated_eq]
      by_cases refused : data.refused = true
      · rw [if_pos refused]
        intro response same
        cases same
      · rw [if_neg refused]
        intro response _
        exact ⟨⟨_, s', List.mem_cons_self, rfl⟩, Bool.eq_false_of_not_eq_true refused⟩

/-- The request is the update; it clears, then writes, and it has written once it
has returned. -/
def Updates (data : UpdateReservationInput) (h : History api World) (p : Async api Response) :
    Prop :=
  ClearsThenWrites data h p ∧ ∀ response, p = .pure response → Wrote h ∧ data.refused = false

/-- The effect on a row of what an update has done so far. -/
def After (data : UpdateReservationInput) (h : History api World) (r r' : Reservation) : Prop :=
  (Wrote h ∧ r' = r.overwrite data) ∨ (¬ Wrote h ∧ r' = r)

/-- Separate updates of one reservation may have written in either order. -/
theorem After.comm {ha hb : History api World} {old mid row : Reservation} (sameId : b.id = a.id)
    (separate : a.Separate b) (first : After a ha old mid) (second : After b hb mid row) :
    ∃ mid', After b hb old mid' ∧ After a ha mid' row := by
  rcases first with ⟨wroteA, rfl⟩ | ⟨notA, rfl⟩
  · rcases second with ⟨wroteB, rfl⟩ | ⟨notB, rfl⟩
    · exact ⟨old.overwrite b, .inl ⟨wroteB, rfl⟩, .inl ⟨wroteA, overwrite_comm sameId separate⟩⟩
    · exact ⟨old, .inr ⟨notB, rfl⟩, .inl ⟨wroteA, rfl⟩⟩
  · exact ⟨row, second, .inr ⟨notA, rfl⟩⟩

theorem wrote_cons {h : History api World} {call : Call} {s : World} :
    Wrote ((call, s) :: h) ↔ call.writes = true ∨ Wrote h := by
  constructor
  · intro wrote
    obtain ⟨call', s', member, writes⟩ := wrote
    rcases List.mem_cons.mp member with same | earlier
    · cases same
      exact .inl writes
    · exact .inr ⟨call', s', earlier, writes⟩
  · intro either
    rcases either with writes | ⟨call', s', member, writes⟩
    · exact ⟨call, s, List.mem_cons_self, writes⟩
    · exact ⟨call', s', List.mem_cons_of_mem _ member, writes⟩

/-- **One step of an update** that saves over the row as it read it. -/
theorem After.step {h : History api World} {call : Call} {c : Choice}
    {k : Except Exn call.Reply → Async api Response} {reply : Except Exn call.Reply}
    {w w' : World} {mid row : Reservation} (updates : Updates data h (.await call k))
    (current : ∀ draft s, call = .db (.saveReservation draft) →
      (.db (.findReservation data.id), s) ∈ h →
      s.tables.find data.id = w.tables.find data.id)
    (answered : (interp db).answer c call w = some (reply, w')) (after : After data h mid row)
    (found : w.tables.find data.id = some row) :
    ∃ row', After data ((call, w) :: h) mid row' ∧ w'.tables.find data.id = some row' := by
  by_cases writes : call.writes = true
  · -- the row was read, and is still what is stored
    have fresh : ¬ Wrote h := by
      intro wrote
      have finished := updates.1.done wrote
      cases finished
    obtain ⟨s, old, read, was, rfl⟩ := updates.1.writes call rfl writes
    rw [current _ s rfl read, found] at was
    cases was
    rcases after with ⟨wrote, -⟩ | ⟨-, rfl⟩
    · exact absurd wrote fresh
    · obtain ⟨-, -, rfl⟩ := interp_db.mp answered
      refine ⟨row.overwrite data, .inl ⟨wrote_cons.mpr (.inl writes), rfl⟩, ?_⟩
      rw [answer_save_assign, updated_eq]
      by_cases refused : data.refused = true
      · rw [if_pos refused, Reservation.overwrite, if_pos refused]
        exact found
      · rw [if_neg refused]
        have id : (row.overwrite data).id = data.id := by
          rw [Reservation.overwrite, if_neg refused]
        simp only
        rw [← id]
        exact Tables.find_put
  · have unchanged : ¬ call.changes db w := fun changes => writes (writes_of_changes changes)
    refine ⟨row, ?_, ?_⟩
    · unfold After
      rw [wrote_cons, or_iff_right writes]
      exact after
    · rw [find_congr (reservations_of_answer unchanged answered)]
      exact found

/-! ## Both together -/

/-- The requests have all arrived and none has been resumed. -/
def inFlight (cfg : Config) (rounds : Nat) (w : World) (requests : List Request) :
    Pool api Request World Response :=
  ⟨w, requests.map fun r => ⟨r, [], r.handle cfg rounds⟩⟩

/-- No further request arrives. -/
def noneArrive : Event Request Choice String → Bool
  | .arrive _ => false
  | _ => true

/-- A row about to be saved is stored as the request read it. -/
def savesWhatItRead (P : Pool api Request World Response) : Event Request Choice String → Bool
  | .resume i _ =>
    match P.procs[i]? with
    | none => true
    | some proc =>
      match proc.prog.next? with
      | some (.db (.saveReservation _)) => proc.history.all fun
          | (.db (.findReservation id), s) => s.tables.find id = P.shared.tables.find id
          | _ => true
      | _ => true
  | _ => true

/-- Both updates are under way, and the row is what they have made of `old` so far. -/
def BothUpdate (db : QueryEngine) (a b : UpdateReservationInput) (old : Reservation)
    (P : Pool api Request World Response) : Prop :=
  ∃ pa pb mid row, P.procs = [pa, pb] ∧
    pa.prog.Always (interp db) (Updates a) pa.history ∧
    pb.prog.Always (interp db) (Updates b) pb.history ∧
    After a pa.history old mid ∧ After b pb.history mid row ∧
    P.shared.tables.find a.id = some row

variable {P P' : Pool api Request World Response} {old : Reservation}

theorem current_of_savesWhatItRead {i : Nat} {c : Choice} {proc : Proc api Request World Response}
    {call : Call} {k : Except Exn call.Reply → Async api Response}
    (good : savesWhatItRead P (.resume i c) = true) (found : P.procs[i]? = some proc)
    (suspended : proc.prog = .await call k) (id : Int) (draft : ReservationDraft) (s : World)
    (saves : call = .db (.saveReservation draft))
    (read : (.db (.findReservation id), s) ∈ proc.history) :
    s.tables.find id = P.shared.tables.find id := by
  subst saves
  simp only [savesWhatItRead, found, suspended, Async.next?, List.all_eq_true] at good
  simpa using good _ read

/-- **One event of the two updates.** -/
theorem bothUpdate_step {e : Event Request Choice String} (sameId : b.id = a.id)
    (separate : a.Separate b) (held : BothUpdate db a b old P) (alone : noneArrive e = true)
    (good : savesWhatItRead P e = true) (fired : (server db cfg rounds).fire e P = some P') :
    BothUpdate db a b old P' := by
  obtain ⟨pa, pb, mid, row, procs, updatesA, updatesB, first, second, stored⟩ := held
  rcases Server.fire_cases fired with ⟨r, rfl, rfl⟩ |
    ⟨i, c, proc, call, k, r, w', rfl, found, suspended, answered, rfl⟩ | ⟨key, rfl, rfl⟩
  · cases alone
  · have current := current_of_savesWhatItRead good found suspended
    rw [procs] at found
    rcases i with _ | _ | i
    · -- the first update takes the step: let it be the last to have written
      cases found
      rw [suspended] at updatesA
      obtain ⟨mid', second, first⟩ := first.comm sameId separate second
      obtain ⟨row', first, stored⟩ := first.step updatesA.1 (current a.id) answered stored
      obtain ⟨mid'', first, second⟩ := second.comm sameId.symm separate.symm first
      refine ⟨pa.resumed call P.shared (k r), pb, mid'', row', ?_,
        updatesA.2 c P.shared r w' answered, updatesB, first, second, stored⟩
      rw [procs]
      rfl
    · cases found
      rw [suspended] at updatesB
      rw [← sameId] at stored
      obtain ⟨row', second, stored⟩ := second.step updatesB.1 (current b.id) answered stored
      rw [sameId] at stored
      refine ⟨pa, pb.resumed call P.shared (k r), mid, row', ?_, updatesA,
        updatesB.2 c P.shared r w' answered, first, second, stored⟩
      rw [procs]
      rfl
    · cases found
  · exact ⟨pa, pb, mid, row, procs, updatesA, updatesB, first, second, stored⟩

/-- A column that takes what either update sets, and stays if neither does. -/
def Merges {α : Type} (old new : α) (x y : Arg α) : Prop :=
  (∀ v, x = .given v → new = v) ∧ (∀ v, y = .given v → new = v) ∧
    (x = .undefined → y = .undefined → new = old)

/-- The row has every field either update sets, and its other fields from `old`. -/
structure Merged (old : Reservation) (a b : UpdateReservationInput) (row : Reservation) : Prop where
  date : Merges old.date row.date a.date b.date
  time : Merges old.time row.time a.time b.time
  guests : Merges old.guests row.guests a.guests b.guests
  id : row.id = old.id
  customer : row.customer = old.customer

theorem merges_over {α : Type} {x y : Arg α} (old : α) (one : x = .undefined ∨ y = .undefined) :
    Merges old (y.overlay (x.overlay old)) x y := by
  refine ⟨?_, ?_, ?_⟩
  · intro v given
    rcases one with absent | absent
    · rw [given] at absent
      cases absent
    · rw [given, absent]
      rfl
  · intro v given
    rw [given]
    rfl
  · intro absentX absentY
    rw [absentX, absentY]
    rfl

theorem merged_overwrite (sameId : b.id = a.id) (separate : a.Separate b) (id : old.id = a.id)
    (fineA : a.refused = false) (fineB : b.refused = false) :
    Merged old a b ((old.overwrite a).overwrite b) := by
  have first : old.overwrite a = ⟨⟨a.time.overlay old.time, a.guests.overlay old.guests⟩, a.id,
      a.date.overlay old.date, old.customer⟩ := if_neg (by simp [fineA])
  rw [first, Reservation.overwrite, if_neg (by simp [fineB])]
  exact ⟨merges_over old.date separate.date, merges_over old.time separate.time,
    merges_over old.guests separate.guests, sameId.trans id.symm, rfl⟩

/-- **No update is lost**, if each saves while the row is as it read it: when both
have returned, the row has every field either has set and its other fields
unchanged, as after one update and then the other, in either order. -/
theorem no_update_lost {w : World} {events : List (Event Request Choice String)}
    (sameId : b.id = a.id) (separate : a.Separate b) (stored : w.tables.find a.id = some old)
    (ran : (server db cfg rounds).run events (inFlight cfg rounds w
      [.mutation (.updateReservation a), .mutation (.updateReservation b)]) = some P)
    (current : (server db cfg rounds).Along (fun P e => noneArrive e = true ∧
      savesWhatItRead P e = true) events (inFlight cfg rounds w
        [.mutation (.updateReservation a), .mutation (.updateReservation b)]))
    (returned : ∀ proc ∈ P.procs, proc.prog.result?.isSome = true) :
    ∃ row, P.shared.tables.find a.id = some row ∧ Merged old a b row ∧
      (old.updated a).bind (fun r => r.updated b) = some row ∧
      (old.updated b).bind (fun r => r.updated a) = some row := by
  have begins : ∀ data : UpdateReservationInput, ((Mutation.updateReservation data).handle cfg
      rounds).Always (interp db) (Updates data) [] := fun data =>
    update_clearsThenWrites.and (update_returns cfg data)
  have unwritten : ¬ Wrote [] := by
    intro wrote
    obtain ⟨call, s, member, -⟩ := wrote
    cases member
  have kept : BothUpdate db a b old P := by
    refine Server.run_preserves (BothUpdate db a b old) ?_ ran current ?_
    · intro Q e Q' held good fired
      exact bothUpdate_step sameId separate held good.1 good.2 fired
    · exact ⟨_, _, old, old, rfl, begins a, begins b, .inr ⟨unwritten, rfl⟩,
        .inr ⟨unwritten, rfl⟩, stored⟩
  obtain ⟨pa, pb, mid, row, procs, updatesA, updatesB, first, second, found⟩ := kept
  rw [procs] at returned
  obtain ⟨responseA, endA⟩ := Option.isSome_iff_exists.mp (returned pa (by simp))
  obtain ⟨responseB, endB⟩ := Option.isSome_iff_exists.mp (returned pb (by simp))
  obtain ⟨wroteA, fineA⟩ := updatesA.here.2 responseA (Async.result?_eq_some.mp endA)
  obtain ⟨wroteB, fineB⟩ := updatesB.here.2 responseB (Async.result?_eq_some.mp endB)
  have mid_eq : mid = old.overwrite a := first.resolve_right (fun no => no.1 wroteA) |>.2
  have row_eq : row = mid.overwrite b := second.resolve_right (fun no => no.1 wroteB) |>.2
  rw [mid_eq] at row_eq
  refine ⟨row, found, ?_, ?_, ?_⟩
  · rw [row_eq]
    exact merged_overwrite sameId separate (Tables.id_of_find stored) fineA fineB
  · rw [updated_eq, if_neg (by simp [fineA]), Option.bind_some, updated_eq,
      if_neg (by simp [fineB]),
      row_eq]
  · rw [updated_eq, if_neg (by simp [fineB]), Option.bind_some, updated_eq,
      if_neg (by simp [fineA]),
      row_eq, overwrite_comm sameId separate]

/-- The update that leaves two guests. -/
def onlyTwoGuests : UpdateReservationInput := ⟨1, .undefined, .undefined, .undefined, .given 2⟩

/-- Both updates read the row before either saves it. -/
def bothReadFirst : List (Event Request Choice String) :=
  [.resume 0 .reply, .resume 1 .reply, .resume 0 (.batch true []), .resume 0 (.batch true []),
    .resume 0 .reply, .resume 1 (.batch true []), .resume 1 (.batch true []), .resume 1 .reply]

/-- The save of the new number of guests undoes the move to 20:00. -/
theorem later_save_undoes_earlier :
    ¬ ∀ (db : QueryEngine) (cfg : Config) (rounds : Nat) (w : World) (a b : UpdateReservationInput)
      (old : Reservation) (events : List (Event Request Choice String))
      (P : Pool api Request World Response), b.id = a.id → a.Separate b →
      w.tables.find a.id = some old →
      (server db cfg rounds).run events (inFlight cfg rounds w
        [.mutation (.updateReservation a), .mutation (.updateReservation b)]) = some P →
      events.all noneArrive = true →
      (∀ proc ∈ P.procs, proc.prog.result?.isSome = true) →
      ∃ row, P.shared.tables.find a.id = some row ∧ Merged old a b row := by
  intro claim
  have result : ((server .inMemory .default 0).run bothReadFirst (inFlight .default 0
      ⟨oneFull, .empty⟩ [.mutation (.updateReservation moveToEight),
        .mutation (.updateReservation onlyTwoGuests)])).any (fun P =>
          P.procs.all (fun proc => proc.prog.result?.isSome) &&
          P.shared.tables.find 1 = some ⟨⟨"18:00", 2⟩, 1, "2025-03-10", ⟨1, "Ada"⟩⟩) = true := by
    decide +kernel
  obtain ⟨P, ran, both⟩ := (Option.any_eq_true _ _).mp result
  simp only [Bool.and_eq_true, List.all_eq_true, decide_eq_true_eq] at both
  have separate : moveToEight.Separate onlyTwoGuests := ⟨.inl rfl, .inr rfl, .inl rfl⟩
  obtain ⟨row, stored, merged⟩ :=
    claim _ _ _ _ moveToEight onlyTwoGuests _ _ P rfl separate rfl ran (by decide) both.1
  have moved := merged.time.1 "20:00" rfl
  cases both.2.symm.trans stored
  exact absurd moved (by decide)

/-- An update that reads after the other has saved keeps both changes. -/
theorem no_update_lost_one_by_one :
    ∃ events P, (server .inMemory .default 0).run events (inFlight .default 0 ⟨oneFull, .empty⟩
        [.mutation (.updateReservation moveToEight),
          .mutation (.updateReservation onlyTwoGuests)]) = some P ∧
      ∃ row, P.shared.tables.find 1 = some row ∧
        Merged ⟨⟨"18:00", 10⟩, 1, "2025-03-10", ⟨1, "Ada"⟩⟩ moveToEight onlyTwoGuests row := by
  let events : List (Event Request Choice String) :=
    [.resume 0 .reply, .resume 0 (.batch true []), .resume 0 (.batch true []), .resume 0 .reply,
      .resume 1 .reply, .resume 1 (.batch true []), .resume 1 (.batch true []), .resume 1 .reply]
  have result : ((server .inMemory .default 0).checkedRun (fun P e =>
      noneArrive e && savesWhatItRead P e) events (inFlight .default 0 ⟨oneFull, .empty⟩
        [.mutation (.updateReservation moveToEight),
          .mutation (.updateReservation onlyTwoGuests)])).any (fun P =>
            P.procs.all fun proc => proc.prog.result?.isSome) = true := by
    decide +kernel
  obtain ⟨P, checked, returned⟩ := (Option.any_eq_true _ _).mp result
  obtain ⟨ran, current⟩ := Server.of_checkedRun
    (fun _ _ checks => Bool.and_eq_true_iff.mp checks) checked
  have separate : moveToEight.Separate onlyTwoGuests := ⟨.inl rfl, .inr rfl, .inl rfl⟩
  have sameId : onlyTwoGuests.id = moveToEight.id := rfl
  obtain ⟨row, stored, merged, -⟩ :=
    no_update_lost sameId separate rfl ran current (List.all_eq_true.mp returned)
  exact ⟨events, P, ran, row, stored, merged⟩

end RestaurantAssistant
