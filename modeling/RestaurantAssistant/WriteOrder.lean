import RestaurantAssistant.Clearing

/-!
# In which order the mutations write and clear

What each mutation is about to do at every one of its await points, whatever
its calls are answered and whatever happens in between:

* `createReservation` and `cancelReservation` write the reservations and then
  clear the cache (`writesThenClears`);
* `updateReservation` reads its row, clears the cache and then saves the row it
  had read, with the given fields replaced (`clearsThenWrites`).
-/

namespace RestaurantAssistant

open Awaiting Js

open redisService

variable {db : QueryEngine} {cfg : Config} {rounds : Nat} {α β : Type}

/-! ## While the cache is being cleared -/

/-- Is the call one of those that clear the cache? -/
def Call.clears : Call → Bool
  | .redis (.scan _ _ _) => true
  | .redis (.del _) => true
  | _ => false

def clearsAt (call : Call) (Q : Except Exn call.Reply → Prop) : Prop :=
  call.clears = true ∧ ∀ reply, Q (.ok reply)

/-- The program only clears the cache, and returns. -/
def OnlyClears (p : Async api α) : Prop := p.wp clearsAt fun out => ∃ a, out = .ok a

theorem onlyClears_scanFrom {pattern : String} {cursor : Cursor} :
    OnlyClears (scanFrom pattern rounds cursor) := by
  have turn : ∀ {cursor : Cursor} {again : Cursor → Async api Unit},
      (∀ next, OnlyClears (again next)) → OnlyClears (scanTurn pattern cursor again) := by
    intro cursor again later
    rw [scanTurn_eq]
    refine ⟨rfl, fun reply => ?_⟩
    obtain ⟨next, keys⟩ := reply
    have goOn : OnlyClears (if next = none then .pure () else again next) := by
      split
      · exact ⟨(), rfl⟩
      · exact later next
    change OnlyClears (if keys.length > 0 then _ else _)
    split
    · exact ⟨rfl, fun _ => goOn⟩
    · exact goOn
  induction rounds generalizing cursor with
  | zero => exact turn fun _ => trivial
  | succ rounds ih => exact turn fun _ => ih

theorem onlyClears_clear : OnlyClears (clearReservationCache rounds) := by
  unfold clearReservationCache scanAndDelete
  refine Async.wp_bind.mpr (Async.wp_mono ?_ ?_ onlyClears_scanFrom)
  · intro call Q Q' weaker clears
    exact ⟨clears.1, fun reply => weaker _ (clears.2 reply)⟩
  · intro out returned
    obtain ⟨a, rfl⟩ := returned
    exact onlyClears_scanFrom

/-- Where a program stands that has been clearing the cache since `h₀`. -/
structure ClearingSince (h₀ h : History api World) (q : Async api α) : Prop where
  next : ∀ call, q.next? = some call → call.clears = true
  steps : ∃ l, h = l ++ h₀ ∧ ∀ step ∈ l, Call.clears step.1 = true
  resolves : ∀ e, q ≠ .throw e
  sweeps : ∀ K, Cleared K → Begun K h ∨ Sweeps K q

theorem writes_of_clears {call : Call} (clears : call.clears = true) : call.writes = false := by
  cases call with
  | db call => cases clears
  | redis call => rfl

theorem OnlyClears.always {p : Async api α} {h₀ h : History api World} (clears : OnlyClears p)
    (steps : ∃ l, h = l ++ h₀ ∧ ∀ step ∈ l, Call.clears step.1 = true) :
    p.Always (interp db) (fun h q => OnlyClears q ∧
      ∃ l, h = l ++ h₀ ∧ ∀ step ∈ l, Call.clears step.1 = true) h := by
  induction p generalizing h with
  | pure a => exact ⟨clears, steps⟩
  | throw e => exact ⟨clears, steps⟩
  | diverge => exact ⟨clears, steps⟩
  | await call k ih =>
    refine ⟨⟨clears, steps⟩, ?_⟩
    intro c s r s' answered
    obtain ⟨reply, rfl⟩ := answer_ok (writes_of_clears clears.1) answered
    obtain ⟨l, rfl, all⟩ := steps
    refine ih _ (clears.2 reply) ⟨(call, s) :: l, rfl, ?_⟩
    intro step member
    rcases List.mem_cons.mp member with rfl | member
    · exact clears.1
    · exact all step member

theorem clear_always {h₀ : History api World} :
    (clearReservationCache rounds).Always (interp db) (ClearingSince h₀) h₀ := by
  have only : (clearReservationCache rounds).Always (interp db) (fun h q => OnlyClears q ∧
      ∃ l, h = l ++ h₀ ∧ ∀ step ∈ l, Call.clears step.1 = true) h₀ :=
    onlyClears_clear.always ⟨[], rfl, by simp⟩
  have swept : (clearReservationCache rounds).Always (interp db)
      (fun h q => ∀ K : { K // Cleared K }, Begun K.1 h ∨ Sweeps K.1 q) h₀ :=
    Async.Always.all fun K => (sweeps_clear K.2).always
  refine (only.and swept).mono ?_
  intro h q both
  obtain ⟨⟨clears, steps⟩, swept⟩ := both
  refine ⟨?_, steps, ?_, fun K cleared => swept ⟨K, cleared⟩⟩
  · intro call next
    cases q with
    | await call' k =>
      cases next
      exact clears.1
    | _ => cases next
  · intro e thrown
    rw [thrown] at clears
    obtain ⟨a, same⟩ := clears
    cases same

/-- A program that clears the cache and goes on with `t`: what holds while it
clears and from then on. -/
theorem clear_then_always {t : Async api α} {g : Exn → Async api α} {φ : α → β}
    {h₀ : History api World} {inv : History api World → Async api β → Prop}
    (clearing : ∀ h q, ClearingSince h₀ h q → q.finished = false → inv h q)
    (after : ∀ l, (∀ step ∈ l, Call.clears step.1 = true) → (∀ K, Cleared K → Begun K (l ++ h₀)) →
      (t.tryCatch g >>= fun x => .pure (φ x)).Always (interp db) inv (l ++ h₀)) :
    ((clearReservationCache rounds >>= fun _ => t).tryCatch g >>= fun x => .pure (φ x)).Always
      (interp db) inv h₀ := by
  have walk : ∀ {p : Async api Unit} {h : History api World},
      p.Always (interp db) (ClearingSince h₀) h →
      ((p >>= fun _ => t).tryCatch g >>= fun x => .pure (φ x)).Always (interp db) inv h := by
    intro p
    induction p with
    | pure a =>
      intro h cleared
      obtain ⟨l, rfl, steps⟩ := cleared.steps
      refine after l steps fun K clearedKey => ?_
      rcases cleared.sweeps K clearedKey with begun | none
      · exact begun
      · exact none.elim
    | throw e =>
      intro h cleared
      exact absurd rfl (cleared.resolves e)
    | diverge =>
      intro h cleared
      refine clearing h .diverge ⟨?_, cleared.steps, ?_, fun K _ => .inr trivial⟩ rfl
      · intro call next
        cases next
      · intro e same
        cases same
    | await call k ih =>
      intro h cleared
      obtain ⟨here, later⟩ := cleared
      refine ⟨clearing h _ ⟨here.next, here.steps, ?_, ?_⟩ rfl, ?_⟩
      · intro e same
        cases same
      · intro K clearedKey
        exact (here.sweeps K clearedKey).imp id fun sweeps =>
          ((sweeps.bind fun _ => t).tryCatch g).bind fun x => .pure (φ x)
      · intro c s r s' answered
        exact ih r (later c s r s' answered)
  exact walk clear_always

/-! ## What the mutations may write -/

/-- The write of reservations a mutation makes, if any, given the calls it has
made. -/
def Mutation.mayWrite (h : History api World) (call : Call) : Mutation → Prop
  | .createReservation data => ∃ customer, call = .db (.saveReservation
      ⟨none, some data.date, some data.time, some data.guests, customer⟩)
  | .cancelReservation id => call = .db (.deleteReservation id)
  | .updateReservation data => ∃ s old, (.db (.findReservation data.id), s) ∈ h ∧
      s.tables.find data.id = some old ∧ call = .db (.saveReservation (assign old data))

/-- The call changes the reservations in this state. -/
def Call.changes (db : QueryEngine) (call : Call) (w : World) : Prop :=
  match call with
  | .db call => (w.tables.answer db call).2.reservations ≠ w.tables.reservations
  | .redis _ => False

/-- The program has changed the reservations. -/
def Changed (db : QueryEngine) (h : History api World) : Prop :=
  ∃ call s, (call, s) ∈ h ∧ call.changes db s

/-- Where a mutation stands that writes first and then clears the cache. -/
structure WritesThenClears (db : QueryEngine) (m : Mutation) (h : History api World)
    (p : Async api Response) : Prop where
  noSet : ∀ key value ttl, p.next? ≠ some (.redis (.set key value ttl))
  writes : ∀ call, p.next? = some call → call.writes = true →
    m.mayWrite h call ∧ ∀ K, ¬ Begun K h
  sweeps : Changed db h → ∀ K, Cleared K → Begun K h ∨ Sweeps K p

/-- The program has written the reservations. -/
def Wrote (h : History api World) : Prop := ∃ call s, (call, s) ∈ h ∧ call.writes = true

/-- Where an update stands: it ends once it has written, or at once if it finds
no row. -/
structure ClearsThenWrites (data : UpdateReservationInput) (h : History api World)
    (p : Async api Response) : Prop where
  start : h = [] → p.next? = some (.db (.findReservation data.id))
  noSet : ∀ key value ttl, p.next? ≠ some (.redis (.set key value ttl))
  writes : ∀ call, p.next? = some call → call.writes = true →
    (Mutation.updateReservation data).mayWrite h call
  sweeps : h ≠ [] → p.finished = true ∨ ∀ K, Cleared K → Begun K h ∨ Sweeps K p
  done : Wrote h → p.finished = true
  ends : p.finished = true → Wrote h ∨ ∃ s, h = [(.db (.findReservation data.id), s)]

/-! ## Write, then clear -/

theorem always_db {call : DbCall} {k : Except Exn call.Reply → Async api α} {h : History api World}
    {inv : History api World → Async api α → Prop} (here : inv h (.await (.db call) k))
    (later : ∀ s, (k (s.tables.answer db call).1).Always (interp db) inv ((.db call, s) :: h)) :
    (Async.await (.db call) k : Async api α).Always (interp db) inv h := by
  refine ⟨here, fun c s r s' answered => ?_⟩
  obtain ⟨-, rfl, -⟩ := interp_db.mp answered
  exact later s

/-- Only repository calls that write no reservations so far. -/
def Reading (h : History api World) : Prop :=
  ∀ step ∈ h, ∃ call : DbCall, step.1 = .db call ∧ call.writes = false

theorem Reading.nil : Reading [] := by
  intro step member
  cases member

theorem Reading.cons {h : History api World} (call : DbCall) (s : World)
    (reads : call.writes = false) (reading : Reading h) : Reading ((.db call, s) :: h) := by
  intro step member
  rcases List.mem_cons.mp member with rfl | member
  · exact ⟨call, rfl, reads⟩
  · exact reading step member

theorem Reading.not_begun {h : History api World} {K : String} (reading : Reading h) :
    ¬ Begun K h := by
  intro begun
  obtain ⟨call, s, member, scans⟩ := begun
  obtain ⟨db, rfl, -⟩ := reading _ member
  exact scans

theorem Reading.not_changed {h : History api World} (reading : Reading h) : ¬ Changed db h := by
  intro changed
  obtain ⟨call, s, member, changes⟩ := changed
  obtain ⟨call, rfl, reads⟩ := reading _ member
  obtain ⟨reply, -, same⟩ := answer_ok_of_reads db s.tables reads
  exact changes same

/-- Before the write. -/
theorem WritesThenClears.before {m : Mutation} {h : History api World} {p : Async api Response}
    (reading : Reading h) (next : ∀ call, p.next? = some call →
      ∃ c : DbCall, call = .db c ∧ (c.writes = true → m.mayWrite h call)) :
    WritesThenClears db m h p := by
  refine ⟨?_, ?_, fun changed => absurd changed reading.not_changed⟩
  · intro key value ttl sets
    obtain ⟨c, same, -⟩ := next _ sets
    cases same
  · intro call calls writes
    obtain ⟨c, rfl, may⟩ := next call calls
    exact ⟨may writes, fun K => reading.not_begun⟩

/-- After the write. -/
theorem writesThenClears_after {m : Mutation} {h : History api World} {g : Exn → Async api α}
    {a : α} {φ : α → Response} :
    ((clearReservationCache rounds >>= fun _ => .pure a).tryCatch g >>= fun x =>
      .pure (φ x)).Always (interp db) (WritesThenClears db m) h := by
  refine clear_then_always ?_ ?_
  · intro h' q clearing _
    refine ⟨?_, ?_, fun _ => clearing.sweeps⟩
    · intro key value ttl sets
      exact absurd (clearing.next _ sets) (by simp [Call.clears])
    · intro call calls writes
      rw [writes_of_clears (clearing.next call calls)] at writes
      cases writes
  · intro l _ begun
    refine ⟨?_, ?_, fun _ K cleared => .inl (begun K cleared)⟩
    · intro key value ttl sets
      cases sets
    · intro call calls
      cases calls

theorem createFor_always {data : CreateReservationInput} {customer : Customer}
    {h : History api World} (reading : Reading h) :
    ((createFor cfg rounds data customer).tryCatch createFailed >>= fun x =>
      .pure (.created x)).Always (interp db) (WritesThenClears db (.createReservation data)) h := by
  unfold createFor
  refine always_db (.before reading ?_) fun s => ?_
  · intro call next
    cases next
    exact ⟨_, rfl, fun writes => by cases writes⟩
  have reading := reading.cons (.findReservations data.date) s rfl
  simp only [Tables.answer, ofExcept_ok]
  change Async.Always _ _ (((if _ then _ else _ : Async api _).tryCatch createFailed) >>= _) _
  split
  · refine always_db (.before reading ?_) fun s' => ?_
    · intro call next
      cases next
      exact ⟨_, rfl, fun _ => ⟨customer, rfl⟩⟩
    · exact writesThenClears_after
  · generalize findNearestAvailableSlots _ _ _ _ _ _ = nearest
    rcases nearest with _ | _ | _ <;>
    · refine .before reading ?_
      intro call next
      cases next

/-- `createReservation` writes, then clears. -/
theorem create_writesThenClears {data : CreateReservationInput} :
    ((Mutation.createReservation data).handle cfg rounds).Always (interp db)
      (WritesThenClears db (.createReservation data)) [] := by
  refine always_db (.before .nil ?_) fun s => ?_
  · intro call next
    cases next
    exact ⟨_, rfl, fun writes => by cases writes⟩
  have reading := Reading.nil.cons (.findCustomer data.customerName) s rfl
  simp only [Tables.answer]
  cases s.tables.customers.find? fun c => c.name = data.customerName with
  | some customer => exact createFor_always reading
  | none =>
    refine always_db (.before reading ?_) fun s' => ?_
    · intro call next
      cases next
      exact ⟨_, rfl, fun writes => by cases writes⟩
    · exact createFor_always (reading.cons _ s' rfl)

/-- `cancelReservation` writes, then clears. -/
theorem cancel_writesThenClears (cfg : Config) {id : Int} :
    ((Mutation.cancelReservation id).handle cfg rounds).Always (interp db)
      (WritesThenClears db (.cancelReservation id)) [] := by
  refine always_db (.before .nil ?_) fun s => ?_
  · intro call next
    cases next
    exact ⟨_, rfl, fun _ => rfl⟩
  simp only [Tables.answer]
  change Async.Always _ _ (((if _ then _ else _ : Async api _).tryCatch _) >>= _) _
  split
  · rename_i none
    -- nothing was deleted, so nothing has changed
    have unchanged : ¬ Changed db [(.db (.deleteReservation id), s)] := by
      intro changed
      obtain ⟨call, s', member, changes⟩ := changed
      cases List.mem_singleton.mp member
      refine changes (List.filter_eq_self.mpr ?_)
      intro r member
      have absent := List.countP_eq_zero.mp none r member
      simpa using absent
    refine ⟨?_, ?_, fun changed => absurd changed unchanged⟩
    · intro key value ttl sets
      cases sets
    · intro call calls
      cases calls
  · exact writesThenClears_after

/-! ## Clear, then write -/

theorem not_wrote_of_clears {l h : History api World}
    (steps : ∀ step ∈ l, Call.clears step.1 = true)
    (reading : Reading h) : ¬ Wrote (l ++ h) := by
  intro wrote
  obtain ⟨call, s, member, writes⟩ := wrote
  rcases List.mem_append.mp member with member | member
  · rw [writes_of_clears (steps _ member)] at writes
    cases writes
  · obtain ⟨c, rfl, reads⟩ := reading _ member
    exact absurd (reads.symm.trans writes) (by decide)

theorem ClearsThenWrites.ended {data : UpdateReservationInput} {h : History api World}
    {p : Async api Response} (finished : p.finished = true)
    (ends : Wrote h ∨ ∃ s, h = [(.db (.findReservation data.id), s)]) :
    ClearsThenWrites data h p := by
  have next := Async.next?_of_finished finished
  refine ⟨?_, ?_, ?_, fun _ => .inl finished, fun _ => finished, fun _ => ends⟩
  · intro empty
    rw [empty] at ends
    rcases ends with ⟨call, s, member, _⟩ | ⟨s, same⟩
    · cases member
    · cases same
  · intro key value ttl sets
    rw [next] at sets
    cases sets
  · intro call calls
    rw [next] at calls
    cases calls

/-- `updateReservation` clears, then writes. -/
theorem update_clearsThenWrites {data : UpdateReservationInput} :
    ((Mutation.updateReservation data).handle cfg rounds).Always (interp db)
      (ClearsThenWrites data) [] := by
  refine always_db ⟨fun _ => rfl, ?_, ?_, fun started => absurd rfl started, ?_, ?_⟩ fun s => ?_
  · intro key value ttl sets
    cases sets
  · intro call next writes
    cases next
    cases writes
  · intro wrote
    exact absurd wrote (not_wrote_of_clears (l := []) (by simp) .nil)
  · intro finished
    cases finished
  have reading := Reading.nil.cons (.findReservation data.id) s rfl
  simp only [Tables.answer]
  cases found : s.tables.find data.id with
  | none => exact .ended rfl (.inr ⟨s, rfl⟩)
  | some old =>
    refine clear_then_always ?_ ?_
    · intro h q clearing suspended
      obtain ⟨l, rfl, steps⟩ := clearing.steps
      refine ⟨?_, ?_, ?_, fun _ => .inr clearing.sweeps, ?_, ?_⟩
      · intro empty
        exact absurd empty (by simp)
      · intro key value ttl sets
        exact absurd (clearing.next _ sets) (by simp [Call.clears])
      · intro call next writes
        rw [writes_of_clears (clearing.next call next)] at writes
        cases writes
      · intro wrote
        exact absurd wrote (not_wrote_of_clears steps reading)
      · intro finished
        exact absurd (suspended.symm.trans finished) (by decide)
    · intro l steps begun
      refine always_db ⟨?_, ?_, ?_, fun _ => .inr fun K cleared => .inl (begun K cleared), ?_, ?_⟩
        fun s' => ?_
      · intro empty
        exact absurd empty (by simp)
      · intro key value ttl sets
        cases sets
      · intro call next _
        cases next
        exact ⟨s, old, List.mem_append_right l List.mem_cons_self, found, rfl⟩
      · intro wrote
        exact absurd wrote (not_wrote_of_clears steps reading)
      · intro finished
        cases finished
      · have wrote : Wrote ((.db (.saveReservation (assign old data)), s') ::
            (l ++ [(.db (.findReservation data.id), s)])) := ⟨_, s', List.mem_cons_self, rfl⟩
        rw [answer_save_assign]
        cases old.updated data with
        | some new => exact .ended rfl (.inl wrote)
        | none => exact .ended rfl (.inl wrote)

end RestaurantAssistant
