import RestaurantAssistant.CacheKey

/-!
# What clearing the cache achieves

A program that is clearing the cache *owes* the deletion of entries: `Owes K b p`
says that whatever `p` goes on to do, the entry with key `K` born at `b` will be
gone before `p` ends or writes the reservations.  A scan that has returned from
its first batch owes what was there when it began; before that, the program
`Sweeps` the key: it owes every entry the key may ever get until then.

* `Owes.step`: a debt is paid or kept by every step of its program.
* `Sweeps.always`: a program that sweeps a key does so until its scan begins.
* `sweeps_clear`: `clearReservationCache` sweeps every key of the two families.
-/

namespace RestaurantAssistant

open Awaiting Js

open redisService

variable {db : QueryEngine} {α β : Type} {K : String} {b : Nat}

/-! ## Debts -/

/-- The entry is still to be returned by the scan with this cursor. -/
def Pending (K : String) (b : Nat) (pattern : String) : Cursor → Prop
  | none => globMatch pattern.toList K.toList = true
  | some owed => (K, b) ∈ owed

/-- What a call leaves of the debt: nothing if it deletes the entry; the rest of
the program is to pay it otherwise, and a scan passes on what it has not
returned. -/
def owedAt (K : String) (b : Nat) : (call : Call) → (Except Exn call.Reply → Prop) → Prop
  | .db call, Q => call.writes = false ∧ ∀ reply, Q (.ok reply)
  | .redis (.get _), Q => ∀ value, Q (.ok value)
  | .redis (.set _ _ _), Q => Q (.ok ())
  | .redis (.del keys), Q => K ∈ keys ∨ Q (.ok ())
  | .redis (.scan cursor pattern _), Q => ∀ next keys,
      (Pending K b pattern cursor → K ∈ keys ∨ ∃ owed, next = some owed ∧ (K, b) ∈ owed) →
      Q (.ok (next, keys))

/-- The program will delete the entry before it ends or writes reservations. -/
def Owes (K : String) (b : Nat) (p : Async api α) : Prop :=
  p.wp (owedAt K b) fun _ => False

theorem owedAt_mono (call : Call) (Q Q' : Except Exn call.Reply → Prop) (weaker : ∀ r, Q r → Q' r)
    (owed : owedAt K b call Q) : owedAt K b call Q' := by
  rcases call with call | call
  · exact ⟨owed.1, fun reply => weaker _ (owed.2 reply)⟩
  · cases call with
    | get key => exact fun value => weaker _ (owed value)
    | set key value ttl => exact weaker _ owed
    | del keys => exact owed.imp id (weaker _)
    | scan cursor pattern count => exact fun next keys kept => weaker _ (owed next keys kept)

theorem Owes.bind {p : Async api α} (f : α → Async api β) (owes : Owes K b p) :
    Owes K b (p >>= f) :=
  Async.wp_bind.mpr (Async.wp_mono owedAt_mono (fun _ => False.elim) owes)

theorem Owes.tryCatch {p : Async api α} (h : Exn → Async api α) (owes : Owes K b p) :
    Owes K b (p.tryCatch h) :=
  Async.wp_tryCatch.mpr (Async.wp_mono owedAt_mono (fun _ => False.elim) owes)

/-- A finished program owes nothing. -/
theorem Owes.not_finished {p : Async api α} (owes : Owes K b p) : p.finished = false := by
  cases p with
  | pure a => exact owes.elim
  | throw e => exact owes.elim
  | await call k => rfl
  | diverge => rfl

/-- A call that does not write the reservations resolves. -/
theorem answer_ok_of_reads (db : QueryEngine) (T : Tables) {call : DbCall}
    (reads : call.writes = false) :
    ∃ reply, (T.answer db call).1 = .ok reply ∧
      (T.answer db call).2.reservations = T.reservations := by
  cases call with
  | saveReservation entity => cases reads
  | deleteReservation id => cases reads
  | findCustomer name => exact ⟨_, rfl, rfl⟩
  | saveCustomer name => exact ⟨_, rfl, rfl⟩
  | findReservations date => exact ⟨_, rfl, rfl⟩
  | findReservation id => exact ⟨_, rfl, rfl⟩
  | getMany query => exact ⟨_, rfl, rfl⟩
  | getCount query => exact ⟨_, rfl, rfl⟩

/-- **A debt is paid or kept.**  If the entry is still there after a call, the
rest of the program owes it. -/
theorem Owes.step {call : Call} {k : Except Exn call.Reply → Async api α} {c : Choice}
    {w w' : World} {r : Except Exn call.Reply} (owes : Owes K b (.await call k))
    (answered : (interp db).answer c call w = some (r, w'))
    (live : ∃ e ∈ w'.redis.entries, e.key = K ∧ e.born = b) : Owes K b (k r) := by
  obtain ⟨e, member, rfl, rfl⟩ := live
  rcases call with call | call
  · obtain ⟨-, rfl, rfl⟩ := interp_db.mp answered
    obtain ⟨reply, same, -⟩ := answer_ok_of_reads db w.tables owes.1
    rw [same]
    exact owes.2 reply
  · cases call with
    | get key =>
      obtain ⟨-, rfl, -⟩ := interp_get.mp answered
      exact owes _
    | set key value ttl =>
      obtain ⟨-, rfl, -⟩ := interp_set.mp answered
      exact owes
    | del keys =>
      obtain ⟨-, rfl, rfl⟩ := interp_del.mp answered
      rcases owes with deleted | later
      · exact absurd deleted (Redis.mem_del.mp member).2
      · exact later
    | scan cursor pattern count =>
      obtain ⟨next, keys, rfl, rfl, -, kept⟩ := interp_scan answered
      refine owes next keys fun pending => ?_
      have alive : w'.redis.live (e.key, e.born) = true :=
        List.any_eq_true.mpr ⟨e, member, by simp⟩
      have owed : (e.key, e.born) ∈ w'.redis.owed pattern cursor := by
        cases cursor with
        | some owed => exact pending
        | none => exact List.mem_map.mpr ⟨e, List.mem_filter.mpr ⟨member, pending⟩, rfl⟩
      exact kept _ owed alive

/-! ## Scans -/

/-- A scan owes what it has not returned yet. -/
theorem scanFrom_owes {pattern : String} {rounds : Nat} {cursor : Cursor}
    (pending : Pending K b pattern cursor) : Owes K b (scanFrom pattern rounds cursor) := by
  -- one turn deletes the entry or goes on with a cursor that still has it pending
  have turn : ∀ {cursor : Cursor} {again : Cursor → Async api Unit}, Pending K b pattern cursor →
      (∀ next, next ≠ none → Pending K b pattern next → Owes K b (again next)) →
      Owes K b (scanTurn pattern cursor again) := by
    intro cursor again pending later
    rw [scanTurn_eq]
    intro next keys kept
    change Owes K b (if keys.length > 0 then _ else _)
    rcases kept pending with returned | ⟨owed, rfl, rest⟩
    · rw [if_pos (List.length_pos_of_mem returned)]
      exact .inl returned
    · have goOn := later (some owed) (by simp) rest
      split
      · refine .inr ?_
        change Owes K b (if (some owed : Cursor) = none then _ else _)
        rw [if_neg (by simp)]
        exact goOn
      · rw [if_neg (by simp)]
        exact goOn
  induction rounds generalizing cursor with
  | zero => exact turn pending fun _ _ _ => trivial
  | succ rounds ih => exact turn pending fun next _ pending => ih pending

/-! ## Sweeping a key -/

/-- Does the call begin a scan that covers the key? -/
def Call.scansFor (K : String) : Call → Prop
  | .redis (.scan none pattern _) => globMatch pattern.toList K.toList = true
  | _ => False

/-- Does the call write the reservations table? -/
def Call.writes : Call → Bool
  | .db call => call.writes
  | .redis _ => false

/-- On every path the program begins a scan that covers the key before it ends
or writes reservations, and from there it owes every entry the key then has. -/
def Sweeps (K : String) : Async api α → Prop
  | .pure _ => False
  | .throw _ => False
  | .diverge => True
  | .await call k => (call.scansFor K ∧ ∀ b, Owes K b (.await call k)) ∨
      (call.writes = false ∧ ∀ reply, Sweeps K (k (.ok reply)))

theorem Sweeps.owes {p : Async api α} (sweeps : Sweeps K p) : Owes K b p := by
  induction p with
  | pure a => exact sweeps.elim
  | throw e => exact sweeps.elim
  | diverge => trivial
  | await call k ih =>
    rcases sweeps with ⟨_, owes⟩ | ⟨reads, later⟩
    · exact owes b
    · rcases call with call | call
      · exact ⟨reads, fun reply => ih _ (later reply)⟩
      · cases call with
        | get key => exact fun value => ih _ (later value)
        | set key value ttl => exact ih _ (later ())
        | del keys => exact .inr (ih _ (later ()))
        | scan cursor pattern count => exact fun next keys _ => ih _ (later (next, keys))

theorem Sweeps.bind {p : Async api α} (f : α → Async api β) (sweeps : Sweeps K p) :
    Sweeps K (p >>= f) := by
  induction p with
  | pure a => exact sweeps.elim
  | throw e => exact sweeps.elim
  | diverge => trivial
  | await call k ih =>
    rcases sweeps with ⟨scans, owes⟩ | ⟨reads, later⟩
    · exact .inl ⟨scans, fun b => (owes b).bind f⟩
    · exact .inr ⟨reads, fun reply => ih _ (later reply)⟩

theorem Sweeps.tryCatch {p : Async api α} (h : Exn → Async api α) (sweeps : Sweeps K p) :
    Sweeps K (p.tryCatch h) := by
  induction p with
  | pure a => exact sweeps.elim
  | throw e => exact sweeps.elim
  | diverge => trivial
  | await call k ih =>
    rcases sweeps with ⟨scans, owes⟩ | ⟨reads, later⟩
    · exact .inl ⟨scans, fun b => (owes b).tryCatch h⟩
    · exact .inr ⟨reads, fun reply => ih _ (later reply)⟩

/-- The program has begun a scan that covers the key. -/
def Begun (K : String) (h : History api World) : Prop := ∃ call s, (call, s) ∈ h ∧ call.scansFor K

theorem Begun.cons {h : History api World} (step : Call × World) (begun : Begun K h) :
    Begun K (step :: h) := by
  obtain ⟨call, s, member, scans⟩ := begun
  exact ⟨call, s, List.mem_cons_of_mem _ member, scans⟩

theorem Begun.always {p : Async api α} {h : History api World}
    {inv : History api World → Async api α → Prop} (weaker : ∀ h p, Begun K h → inv h p)
    (begun : Begun K h) : p.Always (interp db) inv h :=
  (Async.Always.of_history (fun step _ begun => begun.cons step) begun).mono weaker

/-- A call that is no write of reservations resolves. -/
theorem answer_ok {call : Call} {c : Choice} {w w' : World} {r : Except Exn call.Reply}
    (reads : call.writes = false) (answered : (interp db).answer c call w = some (r, w')) :
    ∃ reply, r = .ok reply := by
  rcases call with call | call
  · obtain ⟨-, rfl, -⟩ := interp_db.mp answered
    obtain ⟨reply, same, -⟩ := answer_ok_of_reads db w.tables reads
    exact ⟨reply, same⟩
  · cases call with
    | get key => exact ⟨_, (interp_get.mp answered).2.1⟩
    | set key value ttl => exact ⟨_, (interp_set.mp answered).2.1⟩
    | del keys => exact ⟨_, (interp_del.mp answered).2.1⟩
    | scan cursor pattern count =>
      obtain ⟨next, keys, same, -⟩ := interp_scan answered
      exact ⟨_, same⟩

/-- **A key is swept until its scan begins.** -/
theorem Sweeps.always {p : Async api α} {h : History api World} (sweeps : Sweeps K p) :
    p.Always (interp db) (fun h q => Begun K h ∨ Sweeps K q) h := by
  induction p generalizing h with
  | pure a => exact sweeps.elim
  | throw e => exact sweeps.elim
  | diverge => exact .inr trivial
  | await call k ih =>
    refine ⟨.inr sweeps, ?_⟩
    intro c s r s' answered
    rcases sweeps with ⟨scans, _⟩ | ⟨reads, later⟩
    · exact Begun.always (fun _ _ => .inl) ⟨call, s, List.mem_cons_self, scans⟩
    · obtain ⟨reply, rfl⟩ := answer_ok reads answered
      exact ih _ (later reply)

/-! ## Clearing -/

/-- The key is in one of the families the service clears. -/
def Cleared (K : String) : Prop :=
  globMatch "reservations:*".toList K.toList = true ∨
    globMatch "availability:*".toList K.toList = true

theorem Query.cleared_key (q : Query) : Cleared q.key := by
  have matching := q.key_matches
  cases q with
  | getReservations filter pagination sort => exact .inl matching
  | checkAvailability data => exact .inr matching

theorem sweeps_scanAndDelete {pattern : String} {rounds : Nat}
    (matching : globMatch pattern.toList K.toList = true) :
    Sweeps K (scanAndDelete rounds pattern) := by
  have owes : ∀ b, Owes K b (scanAndDelete rounds pattern) := fun b => scanFrom_owes matching
  unfold scanAndDelete at owes ⊢
  cases rounds with
  | zero =>
    rw [scanFrom, scanTurn_eq] at owes ⊢
    exact .inl ⟨matching, owes⟩
  | succ rounds =>
    rw [scanFrom, scanTurn_eq] at owes ⊢
    exact .inl ⟨matching, owes⟩

/-- A key swept after a scan of the other family is swept. -/
theorem Sweeps.after_scanFrom {pattern : String} {rounds : Nat} {cursor : Cursor}
    {q : Async api α} (sweeps : Sweeps K q) :
    Sweeps K (scanFrom pattern rounds cursor >>= fun _ => q) := by
  have turn : ∀ {cursor : Cursor} {again : Cursor → Async api Unit},
      (∀ next, Sweeps K (again next >>= fun _ => q)) →
      Sweeps K (scanTurn pattern cursor again >>= fun _ => q) := by
    intro cursor again later
    rw [scanTurn_eq]
    refine .inr ⟨rfl, fun reply => ?_⟩
    obtain ⟨next, keys⟩ := reply
    have goOn : Sweeps K ((if next = none then .pure () else again next) >>= fun _ => q) := by
      split
      · exact sweeps
      · exact later next
    change Sweeps K ((if keys.length > 0 then _ else _) >>= fun _ => q)
    split
    · exact .inr ⟨rfl, fun _ => goOn⟩
    · exact goOn
  induction rounds generalizing cursor with
  | zero => exact turn fun _ => trivial
  | succ rounds ih => exact turn fun next => ih

/-- **Clearing sweeps every key of the two families.** -/
theorem sweeps_clear {rounds : Nat} (cleared : Cleared K) :
    Sweeps K (clearReservationCache rounds) := by
  rcases cleared with matching | matching
  · exact (sweeps_scanAndDelete matching).bind _
  · exact Sweeps.after_scanFrom (sweeps_scanAndDelete matching)

/-! ## What is left -/

/-- Does the key begin with `reservations:` or `availability:`? -/
def isReservationKey (key : String) : Bool :=
  "reservations:".toList.isPrefixOf key.toList || "availability:".toList.isPrefixOf key.toList

theorem globMatch_family (front pattern : String) (star : pattern.toList = front.toList ++ ['*'])
    (plain : '*' ∉ front.toList) (key : String) :
    globMatch pattern.toList key.toList = front.toList.isPrefixOf key.toList := by
  rw [star, Bool.eq_iff_iff, globMatch_append_star plain, List.isPrefixOf_iff_prefix]

/-- An undisturbed scan leaves the entries that do not match. -/
theorem entries_of_scanAndDelete {w w' : World} {rounds : Nat} {pattern : String}
    {out : Except Exn Unit}
    (run : Eval (interp db) (scanAndDelete rounds pattern) w out w') :
    out = .ok () ∧ w'.tables = w.tables ∧
      w'.redis.entries = w.redis.entries.filter fun e =>
        !globMatch pattern.toList e.key.toList := by
  obtain ⟨resolved, keys, matching, rfl, gone⟩ := eval_scanFrom rounds run
  refine ⟨resolved, rfl, ?_⟩
  apply List.filter_congr
  intro e member
  rw [Bool.eq_iff_iff, decide_eq_true_eq, Bool.not_eq_true', ← Bool.not_eq_true]
  constructor
  · -- a matching entry was owed, so that it would still be alive
    intro kept matches'
    have owed : (e.key, e.born) ∈ w.redis.owed pattern none :=
      List.mem_map.mpr ⟨e, List.mem_filter.mpr ⟨member, matches'⟩, rfl⟩
    have alive : (w.redis.del keys).live (e.key, e.born) = true :=
      List.any_eq_true.mpr ⟨e, Redis.mem_del.mpr ⟨member, kept⟩, by simp⟩
    rw [gone _ owed] at alive
    cases alive
  · intro other returned
    exact other (matching e.key returned)

/-- Clearing removes every key that begins with `reservations:` or `availability:` and
no other one, whatever batches the scans return, although they delete keys while the
iteration is running. -/
theorem clearing_removes_exactly (db : QueryEngine) (rounds : Nat) (w : World) :
    (∃ w', Eval (interp db) (clearReservationCache rounds) w (.ok ()) w') ∧
    ∀ out w', Eval (interp db) (clearReservationCache rounds) w out w' →
      out = .ok () ∧ w'.tables = w.tables ∧
      w'.redis.entries = w.redis.entries.filter (fun e => !isReservationKey e.key) ∧
      ∀ key, w'.redis.get key = if isReservationKey key then none else w.redis.get key := by
  refine ⟨?_, ?_⟩
  · have cleared : Eval (cacheless db) (clearReservationCache rounds) w.tables (.ok ()) w.tables :=
      eval_cacheless_iff.mpr direct_clear
    obtain ⟨w', run, -⟩ := (CacheBlind.clearReservationCache w _ _).mp cleared
    exact ⟨w', run⟩
  · intro out w' run
    have reservations := globMatch_family "reservations:" "reservations:*" (by decide) (by decide)
    have availability := globMatch_family "availability:" "availability:*" (by decide) (by decide)
    rcases Eval.bind_iff.mp run with ⟨_, v, first, second⟩ | ⟨e, first, rfl⟩
    · obtain ⟨-, tables, entries⟩ := entries_of_scanAndDelete first
      obtain ⟨resolved, tables', entries'⟩ := entries_of_scanAndDelete second
      have left : w'.redis.entries = w.redis.entries.filter fun e => !isReservationKey e.key := by
        rw [entries', entries, List.filter_filter]
        apply List.filter_congr
        intro e _
        rw [reservations, availability, isReservationKey, Bool.not_or, Bool.and_comm]
      refine ⟨resolved, tables'.trans tables, left, ?_⟩
      intro key
      rw [Redis.get_of_filter (p := fun key => !isReservationKey key) left]
      cases isReservationKey key <;> rfl
    · cases (entries_of_scanAndDelete first).1

end RestaurantAssistant
