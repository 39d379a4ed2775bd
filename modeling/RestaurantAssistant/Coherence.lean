import RestaurantAssistant.WriteOrder

/-!
# Coherence of the cache

A cache is coherent if every entry is the answer the tables give for its key.
Queries keep it so.  A mutation that runs alone keeps it so too, and one that
has queries served at its await points does if they do not slip in between an
update's clearing and its write (`mutation_leaves_no_stale_entry`).  One that
does leaves a stale entry (`stale_entry_after_update`).
-/

namespace RestaurantAssistant

open Awaiting Js

variable {db : QueryEngine} {cfg : Config} {rounds : Nat} {w w' : World}

/-- The entry is what the tables give for every query with its key. -/
def FreshEntry (db : QueryEngine) (cfg : Config) (T : Tables) (e : Entry QueryOutput) : Prop :=
  ∀ q : Query, q.conform = true → q.key = e.key → fresh db cfg T q = some e.value

/-- Every cache entry equals the freshly computed answer. -/
def Coherent (db : QueryEngine) (cfg : Config) (w : World) : Prop :=
  ∀ e ∈ w.redis.entries, FreshEntry db cfg w.tables e

/-! ## Fresh entries -/

theorem fresh_congr {T T' : Tables} {q : Query}
    (same : T'.reservations = T.reservations) : fresh db cfg T' q = fresh db cfg T q := by
  rw [fresh_eq, fresh_eq, same]

theorem FreshEntry.congr {T T' : Tables} {e : Entry QueryOutput}
    (same : T'.reservations = T.reservations) (entry : FreshEntry db cfg T e) :
    FreshEntry db cfg T' e := by
  intro q conform key
  rw [fresh_congr same]
  exact entry q conform key

/-- The answer of one query with the key is the answer of all. -/
theorem FreshEntry.of_query {T : Tables} {e : Entry QueryOutput} {q : Query}
    (conform : q.conform = true) (key : e.key = q.key)
    (answer : fresh db cfg T q = some e.value) : FreshEntry db cfg T e := by
  intro q' conform' key'
  rw [fresh_eq] at answer ⊢
  rw [Query.answer_eq_of_key_eq conform' conform (key'.trans key), answer]

/-- No query has a key outside the families that are cleared. -/
theorem FreshEntry.of_not_cleared {T : Tables} {e : Entry QueryOutput}
    (outside : ¬ Cleared e.key) : FreshEntry db cfg T e := by
  intro q _ key
  exact absurd (key ▸ q.cleared_key) outside

/-- A query adds at most an entry with its own fresh answer. -/
theorem entries_of_query {q : Query} {out : Except Exn QueryOutput} {P : Entry QueryOutput → Prop}
    (conform : q.conform = true) (run : Eval (interp db) (q.handle cfg) w out w')
    (old : ∀ e ∈ w.redis.entries, P e)
    (new : ∀ e, e.key = q.key → fresh db cfg w.tables q = some e.value → P e) :
    w'.tables = w.tables ∧ ∀ e ∈ w'.redis.entries, P e := by
  rcases (eval_query conform).mp run with ⟨v, _, _, rfl⟩ | ⟨_, v, answer, _, rfl⟩
  · exact ⟨rfl, old⟩
  · refine ⟨rfl, fun e member => ?_⟩
    rcases Redis.mem_set member with ⟨was, _⟩ | ⟨key, value⟩
    · exact old e was
    · exact new e key (by rw [answer, value])

/-! ## Mutations that write first -/

/-- Only `set` adds entries. -/
theorem entries_of_answer {call : Call} {c : Choice} {r : Except Exn call.Reply}
    (noSet : ∀ key value ttl, call ≠ .redis (.set key value ttl))
    (answered : (interp db).answer c call w = some (r, w')) :
    ∀ e ∈ w'.redis.entries, e ∈ w.redis.entries := by
  intro e member
  rcases call with call | call
  · obtain ⟨-, -, rfl⟩ := interp_db.mp answered
    exact member
  · cases call with
    | get key =>
      obtain ⟨-, -, rfl⟩ := interp_get.mp answered
      exact member
    | set key value ttl => exact absurd rfl (noSet key value ttl)
    | del keys =>
      obtain ⟨-, -, rfl⟩ := interp_del.mp answered
      exact (Redis.mem_del.mp member).1
    | scan cursor pattern count =>
      obtain ⟨next, keys, -, rfl, -⟩ := interp_scan answered
      exact member

theorem reservations_of_answer {call : Call} {c : Choice} {r : Except Exn call.Reply}
    (unchanged : ¬ call.changes db w)
    (answered : (interp db).answer c call w = some (r, w')) :
    w'.tables.reservations = w.tables.reservations := by
  rcases call with call | call
  · obtain ⟨-, -, rfl⟩ := interp_db.mp answered
    exact not_not.mp unchanged
  · cases call with
    | get key =>
      obtain ⟨-, -, rfl⟩ := interp_get.mp answered
      rfl
    | set key value ttl =>
      obtain ⟨-, -, rfl⟩ := interp_set.mp answered
      rfl
    | del keys =>
      obtain ⟨-, -, rfl⟩ := interp_del.mp answered
      rfl
    | scan cursor pattern count =>
      obtain ⟨next, keys, -, rfl, -⟩ := interp_scan answered
      rfl

theorem writes_of_changes {call : Call} (changes : call.changes db w) : call.writes = true := by
  rcases call with call | call
  · by_contra reads
    obtain ⟨reply, -, same⟩ := answer_ok_of_reads db w.tables
      (Bool.eq_false_of_not_eq_true reads)
    exact changes same
  · exact changes.elim

/-- **One step of a mutation that writes first.**  If every entry is fresh or to
be deleted, by this mutation or by others, it still is after the step. -/
theorem WritesThenClears.step {m : Mutation} {h : History api World} {call : Call}
    {k : Except Exn call.Reply → Async api Response} {c : Choice} {r : Except Exn call.Reply}
    {others : String → Nat → Prop} (before : WritesThenClears db m h (.await call k))
    (after : WritesThenClears db m ((call, w) :: h) (k r))
    (answered : (interp db).answer c call w = some (r, w'))
    (settled : ∀ e ∈ w.redis.entries, FreshEntry db cfg w.tables e ∨
      Owes e.key e.born (.await call k) ∨ others e.key e.born) :
    ∀ e ∈ w'.redis.entries, FreshEntry db cfg w'.tables e ∨ Owes e.key e.born (k r) ∨
      others e.key e.born := by
  intro e member
  have noSet : ∀ key value ttl, call ≠ .redis (.set key value ttl) := by
    intro key value ttl sets
    exact before.noSet key value ttl (congrArg some sets)
  have was := entries_of_answer noSet answered e member
  by_cases changes : call.changes db w
  · by_cases cleared : Cleared e.key
    · have writes := writes_of_changes changes
      rcases after.sweeps ⟨call, w, List.mem_cons_self, changes⟩ e.key cleared with begun | sweeps
      · obtain ⟨call', s, member', scans⟩ := begun
        rcases List.mem_cons.mp member' with same | earlier
        · cases same
          rcases call with call | call
          · exact scans.elim
          · exact changes.elim
        · exact absurd ⟨call', s, earlier, scans⟩ ((before.writes call rfl writes).2 e.key)
      · exact .inr (.inl sweeps.owes)
    · exact .inl (.of_not_cleared cleared)
  · have same := reservations_of_answer changes answered
    rcases settled e was with entry | owes | other
    · exact .inl (entry.congr same)
    · exact .inr (.inl (owes.step answered ⟨e, member, rfl, rfl⟩))
    · exact .inr (.inr other)

/-! ## Queries at the await points of a mutation -/

/-- What may happen while a mutation is suspended: a query that `ok` permits is
served, or an entry expires. -/
inductive Meanwhile (db : QueryEngine) (cfg : Config)
    (ok : History api World → World → Query → Prop) (h : History api World) :
    World → World → Prop
  | query {w w' : World} {q : Query} {out : Except Exn QueryOutput} : q.conform = true →
      ok h w q → Eval (interp db) (q.handle cfg) w out w' → Meanwhile db cfg ok h w w'
  | expire {w : World} (key : String) :
      Meanwhile db cfg ok h w { w with redis := w.redis.expire key }

/-- The tables an update leaves. -/
def Tables.updated (T : Tables) (data : UpdateReservationInput) : Tables :=
  match T.find data.id with
  | none => T
  | some old =>
    match old.updated data with
    | some new => T.put new
    | none => T

/-- The query does not come between an update's scan for its key and the
update's write, or the update does not change its answer. -/
def Harmless (db : QueryEngine) (cfg : Config) (m : Mutation) (h : History api World) (w : World)
    (q : Query) : Prop :=
  match m with
  | .updateReservation data => Begun q.key h →
      fresh db cfg (w.tables.updated data) q = fresh db cfg w.tables q
  | _ => True

theorem coherent_of_writesThenClears {m : Mutation} {out : Except Exn Response}
    {ok : History api World → World → Query → Prop}
    (order : (m.handle cfg rounds).Always (interp db) (WritesThenClears db m) [])
    (coherent : Coherent db cfg w)
    (run : EvalAmid (interp db) (Meanwhile db cfg ok) [] (m.handle cfg rounds) w out w') :
    Coherent db cfg w' := by
  have kept : ∃ h, (Async.ofExcept out).Always (interp db) (WritesThenClears db m) h ∧
      ∀ e ∈ w'.redis.entries, FreshEntry db cfg w'.tables e ∨
        Owes e.key e.born (.ofExcept out : Async api Response) ∨ False := by
    refine run.preserves (fun h p w => p.Always (interp db) (WritesThenClears db m) h ∧
      ∀ e ∈ w.redis.entries, FreshEntry db cfg w.tables e ∨ Owes e.key e.born p ∨ False)
      ?_ ?_ ⟨order, fun e member => .inl (coherent e member)⟩
    · intro h call k c s r s' now answered
      obtain ⟨always, settled⟩ := now
      have later := always.2 c s r s' answered
      let others : String → Nat → Prop := fun _ _ => False
      have before : ∀ e ∈ s.redis.entries, FreshEntry db cfg s.tables e ∨
          Owes e.key e.born (.await call k) ∨ others e.key e.born := settled
      exact ⟨later, always.1.step later.here answered before⟩
    · intro h call k s s' now step
      obtain ⟨always, settled⟩ := now
      refine ⟨always, ?_⟩
      cases step with
      | query conform _ run =>
        obtain ⟨same, entries⟩ := entries_of_query conform run settled fun e key answer =>
          .inl (FreshEntry.of_query conform key answer)
        rw [same]
        exact entries
      | expire key => exact fun e member => settled e (Redis.mem_del.mp member).1
  obtain ⟨h, -, settled⟩ := kept
  intro e member
  rcases settled e member with entry | owes | none
  · exact entry
  · have unfinished := owes.not_finished
    cases out <;> cases unfinished
  · exact none.elim

/-! ## Updates -/

/-- Where an update stands that began on the tables `T`: it has read nothing
yet; or every entry will be gone or fresh when it has written; or it has ended
with a coherent cache. -/
inductive Updating (db : QueryEngine) (cfg : Config) (data : UpdateReservationInput) (T : Tables) :
    History api World → Async api Response → World → Prop
  | begun {p : Async api Response} {w : World} : w.tables.reservations = T.reservations →
      Coherent db cfg w → Updating db cfg data T [] p w
  | clearing {h : History api World} {p : Async api Response} {w : World} : h ≠ [] →
      p.finished = false → w.tables.reservations = T.reservations →
      (∀ step ∈ h, step.2.tables.reservations = T.reservations) →
      (∀ e ∈ w.redis.entries, FreshEntry db cfg (T.updated data) e ∨ Owes e.key e.born p) →
      Updating db cfg data T h p w
  | ended {h : History api World} {p : Async api Response} {w : World} : p.finished = true →
      Coherent db cfg w → Updating db cfg data T h p w

theorem find_congr {T T' : Tables} (same : T'.reservations = T.reservations) (id : Int) :
    T'.find id = T.find id := by
  unfold Tables.find
  rw [same]

/-- The save of an update leaves the updated reservations. -/
theorem updated_of_save {T T' : Tables} {data : UpdateReservationInput} {old : Reservation}
    (same : T'.reservations = T.reservations) (found : T.find data.id = some old) :
    (T'.answer db (.saveReservation (assign old data))).2.reservations =
      (T.updated data).reservations := by
  rw [answer_save_assign]
  unfold Tables.updated
  rw [found]
  simp only
  cases old.updated data with
  | none => exact same
  | some new =>
    simp only [Tables.put]
    rw [same]

theorem Updating.step {data : UpdateReservationInput} {T : Tables} {h : History api World}
    {call : Call} {k : Except Exn call.Reply → Async api Response} {c : Choice}
    {r : Except Exn call.Reply} (now : Updating db cfg data T h (.await call k) w)
    (before : ClearsThenWrites data h (.await call k))
    (after : ClearsThenWrites data ((call, w) :: h) (k r))
    (answered : (interp db).answer c call w = some (r, w')) :
    Updating db cfg data T ((call, w) :: h) (k r) w' := by
  have noSet : ∀ key value ttl, call ≠ .redis (.set key value ttl) := by
    intro key value ttl sets
    exact before.noSet key value ttl (congrArg some sets)
  have entries := entries_of_answer noSet answered
  cases now with
  | begun same coherent =>
    -- the row is read: the update ends here, or sweeps every key
    obtain rfl : call = .db (.findReservation data.id) := Option.some.inj (before.start rfl)
    obtain ⟨-, rfl, rfl⟩ := interp_db.mp answered
    rcases after.sweeps (by simp) with finished | sweeps
    · exact .ended finished coherent
    · by_cases finished : (k (w.tables.answer db (.findReservation data.id)).1).finished = true
      · exact .ended finished coherent
      · refine .clearing (by simp) (Bool.eq_false_of_not_eq_true finished) same ?_ ?_
        · intro step member
          cases List.mem_singleton.mp member
          exact same
        · intro e member
          by_cases cleared : Cleared e.key
          · rcases sweeps e.key cleared with ⟨call, s, member, scans⟩ | sweeps
            · cases List.mem_singleton.mp member
              exact scans.elim
            · exact .inr sweeps.owes
          · exact .inl (.of_not_cleared cleared)
  | clearing started _ same snapshots settled =>
    have snapshots' : ∀ step ∈ (call, w) :: h, step.2.tables.reservations = T.reservations := by
      intro step member
      rcases List.mem_cons.mp member with rfl | member
      · exact same
      · exact snapshots step member
    by_cases writes : call.writes = true
    · -- the save: what is still there is fresh afterwards
      obtain ⟨s, old, read, found, rfl⟩ := before.writes call rfl writes
      obtain ⟨-, rfl, rfl⟩ := interp_db.mp answered
      rw [find_congr (snapshots _ read)] at found
      refine .ended (after.done ⟨_, w, List.mem_cons_self, rfl⟩) fun e member => ?_
      rcases settled e member with entry | owes
      · exact entry.congr (updated_of_save same found)
      · exact absurd owes.1 (by simp [DbCall.writes])
    · -- a step of the clearing
      have unchanged : ¬ call.changes db w := fun changes => writes (writes_of_changes changes)
      have same' := (reservations_of_answer unchanged answered).trans same
      have unfinished : (k r).finished = false := by
        by_contra finished
        rcases after.ends (Bool.eq_true_of_not_eq_false finished) with wrote | ⟨s, short⟩
        · obtain ⟨call', s, member, wrote⟩ := wrote
          rcases List.mem_cons.mp member with here | earlier
          · cases here
            exact writes wrote
          · exact absurd (before.done ⟨call', s, earlier, wrote⟩) (by simp [Async.finished])
        · exact started (List.cons.inj short).2
      refine .clearing (by simp) unfinished same' snapshots' fun e member => ?_
      rcases settled e (entries e member) with entry | owes
      · exact .inl entry
      · exact .inr (owes.step answered ⟨e, member, rfl, rfl⟩)
  | ended finished _ => cases finished

theorem updated_congr {T T' : Tables} {data : UpdateReservationInput}
    (same : T'.reservations = T.reservations) :
    (T'.updated data).reservations = (T.updated data).reservations := by
  unfold Tables.updated
  rw [find_congr same]
  split
  · exact same
  · split
    · simp only [Tables.put]
      rw [same]
    · exact same

theorem Updating.meanwhile {data : UpdateReservationInput} {T : Tables} {h : History api World}
    {call : Call} {k : Except Exn call.Reply → Async api Response}
    (now : Updating db cfg data T h (.await call k) w)
    (order : ClearsThenWrites data h (.await call k))
    (step : Meanwhile db cfg (Harmless db cfg (.updateReservation data)) h w w') :
    Updating db cfg data T h (.await call k) w' := by
  cases step with
  | expire key =>
    cases now with
    | begun same coherent =>
      exact .begun same fun e member => coherent e (Redis.mem_del.mp member).1
    | clearing started unfinished same snapshots settled =>
      exact .clearing started unfinished same snapshots fun e member =>
        settled e (Redis.mem_del.mp member).1
    | ended finished _ => cases finished
  | @query _ q out conform harmless run =>
    cases now with
    | begun same coherent =>
      obtain ⟨tables, entries⟩ := entries_of_query conform run coherent fun e key answer =>
        FreshEntry.of_query conform key answer
      refine .begun (tables ▸ same) ?_
      unfold Coherent
      rw [tables]
      exact entries
    | clearing started unfinished same snapshots settled =>
      -- the entry of the query is still to be scanned for, or fresh after the update
      obtain ⟨tables, entries⟩ := entries_of_query conform run settled fun e key answer => by
        by_cases scanned : Begun q.key h
        · have later := harmless scanned
          rw [fresh_congr (updated_congr same), answer] at later
          exact .inl (.of_query conform key later)
        · rcases order.sweeps started with finished | sweeps
          · cases finished
          · rcases sweeps q.key q.cleared_key with begun | sweeps
            · exact absurd begun scanned
            · exact .inr (key ▸ sweeps.owes)
      exact .clearing started unfinished (tables ▸ same) snapshots entries
    | ended finished _ => cases finished

theorem coherent_of_update {data : UpdateReservationInput} {out : Except Exn Response}
    (coherent : Coherent db cfg w)
    (run : EvalAmid (interp db) (Meanwhile db cfg (Harmless db cfg (.updateReservation data))) []
      ((Mutation.updateReservation data).handle cfg rounds) w out w') : Coherent db cfg w' := by
  have kept : ∃ h, (Async.ofExcept out).Always (interp db) (ClearsThenWrites data) h ∧
      Updating db cfg data w.tables h (.ofExcept out) w' := by
    refine run.preserves (fun h p s => p.Always (interp db) (ClearsThenWrites data) h ∧
      Updating db cfg data w.tables h p s) ?_ ?_ ⟨update_clearsThenWrites, .begun rfl coherent⟩
    · intro h call k c s r s' now answered
      obtain ⟨always, now⟩ := now
      have later := always.2 c s r s' answered
      exact ⟨later, now.step always.1 later.here answered⟩
    · intro h call k s s' now step
      exact ⟨now.1, now.2.meanwhile now.1.1 step⟩
  obtain ⟨h, -, ended⟩ := kept
  cases ended with
  | begun _ coherent => exact coherent
  | clearing _ unfinished => cases out <;> cases unfinished
  | ended _ coherent => exact coherent

/-- The cache is coherent after a mutation of any outcome. -/
theorem coherent_of_mutation {m : Mutation} {out : Except Exn Response}
    (coherent : Coherent db cfg w)
    (run : EvalAmid (interp db) (Meanwhile db cfg (Harmless db cfg m)) [] (m.handle cfg rounds) w
      out w') : Coherent db cfg w' := by
  cases m with
  | createReservation data =>
    exact coherent_of_writesThenClears create_writesThenClears coherent run
  | cancelReservation id =>
    exact coherent_of_writesThenClears (cancel_writesThenClears cfg) coherent run
  | updateReservation data => exact coherent_of_update coherent run

/-- **No mutation leaves a stale entry behind its own return**, if no query fills
the cache between an update's scan and its write with an answer the update
changes. -/
theorem mutation_leaves_no_stale_entry {m : Mutation} {response : Response}
    (coherent : Coherent db cfg w)
    (run : EvalAmid (interp db) (Meanwhile db cfg (Harmless db cfg m)) [] (m.handle cfg rounds) w
      (.ok response) w') : Coherent db cfg w' :=
  coherent_of_mutation coherent run

/-! ## A stale entry -/

/-- A table with one reservation that fills 18:00. -/
def oneFull : Tables := ⟨[⟨⟨"18:00", 10⟩, 1, "2025-03-10", ⟨1, "Ada"⟩⟩], [⟨1, "Ada"⟩], 2, 2⟩

/-- The update that moves the reservation to 20:00. -/
def moveToEight : UpdateReservationInput := ⟨1, .undefined, .undefined, .given "20:00", .undefined⟩

/-- Is there a seat at 18:00? -/
def seatAtSix : Query := .checkAvailability ⟨"2025-03-10", .given "18:00", .undefined, 1⟩

/-- The answer before the update. -/
def noSeatAtSix : Entry QueryOutput :=
  ⟨"availability:2025-03-10:18:00-none:1", .availability ⟨"Time slot unavailable", []⟩, 0⟩

theorem eval_seatAtSix :
    Eval (interp .inMemory) (seatAtSix.handle .default) ⟨oneFull, .empty⟩ (.ok noSeatAtSix.value)
      ⟨oneFull, ⟨[noSeatAtSix], 1⟩⟩ := by
  have answer : fresh .inMemory .default oneFull seatAtSix = some noSeatAtSix.value := by
    decide +kernel
  exact (eval_query rfl).mpr (.inr ⟨rfl, _, answer, rfl, by decide +kernel⟩)

/-- A query between an update's scans and its save is cached for good. -/
theorem stale_entry_after_update :
    ¬ ∀ (db : QueryEngine) (cfg : Config) (rounds : Nat) (m : Mutation) (w w' : World)
      (response : Response), Coherent db cfg w →
      EvalAmid (interp db) (Meanwhile db cfg fun _ _ _ => True) [] (m.handle cfg rounds) w
        (.ok response) w' → Coherent db cfg w' := by
  intro claim
  have start : Coherent .inMemory .default ⟨oneFull, .empty⟩ := by
    intro e member
    cases member
  -- the row is read, both scans find nothing, the query is answered, the row is saved
  have run : EvalAmid (interp .inMemory) (Meanwhile .inMemory .default fun _ _ _ => True) []
      ((Mutation.updateReservation moveToEight).handle .default 0) ⟨oneFull, .empty⟩
      (.ok (.updated ⟨⟨"20:00", 10⟩, 1, "2025-03-10", ⟨1, "Ada"⟩⟩))
      ⟨oneFull.updated moveToEight, ⟨[noSeatAtSix], 1⟩⟩ :=
    .await .reply rfl (.await (.batch true []) rfl (.await (.batch true []) rfl
      (.interfere (.query rfl trivial eval_seatAtSix) (.await .reply rfl .pure))))
  have stale := claim _ _ _ _ _ _ _ start run noSeatAtSix (by simp)
    seatAtSix rfl (by decide +kernel)
  exact absurd stale (by decide +kernel)

/-- Is there a seat at 18:00 on the next day? -/
def seatNextDay : Query := .checkAvailability ⟨"2025-03-11", .given "18:00", .undefined, 1⟩

/-- The answer, which the update does not change. -/
def freeNextDay : Entry QueryOutput :=
  ⟨"availability:2025-03-11:18:00-none:1", .availability ⟨"Time slot available", ["18:00"]⟩, 0⟩

/-- A query for another day may come between the scans and the save. -/
theorem mutation_leaves_no_stale_entry_other_day :
    Coherent .inMemory .default ⟨oneFull.updated moveToEight, ⟨[freeNextDay], 1⟩⟩ := by
  have start : Coherent .inMemory .default ⟨oneFull, .empty⟩ := by
    intro e member
    cases member
  have answer : fresh .inMemory .default oneFull seatNextDay = some freeNextDay.value := by
    decide +kernel
  have asked : Eval (interp .inMemory) (seatNextDay.handle .default) ⟨oneFull, .empty⟩
      (.ok freeNextDay.value) ⟨oneFull, ⟨[freeNextDay], 1⟩⟩ :=
    (eval_query rfl).mpr (.inr ⟨rfl, _, answer, rfl, by decide +kernel⟩)
  have harmless : ∀ {h : History api World},
      Harmless .inMemory .default (.updateReservation moveToEight) h ⟨oneFull, .empty⟩
        seatNextDay := by
    intro h _
    decide +kernel
  have run : EvalAmid (interp .inMemory)
      (Meanwhile .inMemory .default (Harmless .inMemory .default (.updateReservation moveToEight)))
      [] ((Mutation.updateReservation moveToEight).handle .default 0) ⟨oneFull, .empty⟩
      (.ok (.updated ⟨⟨"20:00", 10⟩, 1, "2025-03-10", ⟨1, "Ada"⟩⟩))
      ⟨oneFull.updated moveToEight, ⟨[freeNextDay], 1⟩⟩ :=
    .await .reply rfl (.await (.batch true []) rfl (.await (.batch true []) rfl
      (.interfere (.query rfl harmless asked) (.await .reply rfl .pure))))
  exact mutation_leaves_no_stale_entry start run

end RestaurantAssistant
