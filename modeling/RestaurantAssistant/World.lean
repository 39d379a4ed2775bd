import RestaurantAssistant.Service

/-!
# The service on its tables and its cache

What the calls of the service do: `interp` on the tables and the cache together,
`cacheless` on the tables alone, where every `get` misses and the other Redis
commands do nothing.  `direct` runs a program without a cache; its result is a
function of the tables, and `fresh` is the answer of a query computed that way.
-/

namespace RestaurantAssistant

open Awaiting Js

structure World where
  tables : Tables
  redis : Redis QueryOutput
  deriving DecidableEq

def World.empty : World := ⟨.empty, .empty⟩

/-- Outcome and effect of an awaited call. -/
def World.answer (db : QueryEngine) : Choice → (call : Call) → World →
    Option (Except Exn call.Reply × World)
  | .reply, .db call, w =>
    some ((w.tables.answer db call).1, { w with tables := (w.tables.answer db call).2 })
  | .batch _ _, .db _, _ => none
  | c, .redis call, w =>
    (w.redis.answer c call).map fun (reply, R) => (.ok reply, { w with redis := R })

def interp (db : QueryEngine) : Interp api World Choice := ⟨World.answer db⟩

/-- The service; the environment expires cache entries. -/
def server (db : QueryEngine) (cfg : Config) (rounds : Nat) :
    Server api Request World Choice String Response where
  interp := interp db
  handle := Request.handle cfg rounds
  env key w := { w with redis := w.redis.expire key }

/-! ## What the calls do -/

section Calls

variable {db : QueryEngine} {α : Type} {w w' : World} {c : Choice}

/-- A call that leaves nothing open has one outcome. -/
theorem interp_reply {call : Call} {r r₀ : Except Exn call.Reply} {w₀ : World}
    (one : (interp db).answer .reply call w = some (r₀, w₀))
    (none : ∀ last keys, (interp db).answer (.batch last keys) call w = none) :
    (interp db).answer c call w = some (r, w') ↔ c = .reply ∧ r = r₀ ∧ w' = w₀ := by
  constructor
  · intro answered
    cases c with
    | reply =>
      rw [one] at answered
      cases answered
      exact ⟨rfl, rfl, rfl⟩
    | batch last keys =>
      rw [none] at answered
      cases answered
  · intro only
    obtain ⟨rfl, rfl, rfl⟩ := only
    exact one

/-- A repository call has one outcome. -/
theorem interp_db {call : DbCall} {r : Except Exn call.Reply} :
    (interp db).answer c (.db call) w = some (r, w') ↔
      c = .reply ∧ r = (w.tables.answer db call).1 ∧
        w' = { w with tables := (w.tables.answer db call).2 } := interp_reply rfl fun _ _ => rfl

theorem interp_get {key : String} {r : Except Exn (Option QueryOutput)} :
    (interp db).answer c (.redis (.get key)) w = some (r, w') ↔
      c = .reply ∧ r = .ok (w.redis.get key) ∧ w' = w := interp_reply rfl fun _ _ => rfl

theorem interp_set {key : String} {value : QueryOutput} {ttl : Nat} {r : Except Exn Unit} :
    (interp db).answer c (.redis (.set key value ttl)) w = some (r, w') ↔
      c = .reply ∧ r = .ok () ∧ w' = { w with redis := w.redis.set key value } :=
  interp_reply rfl fun _ _ => rfl

theorem interp_del {keys : List String} {r : Except Exn Unit} :
    (interp db).answer c (.redis (.del keys)) w = some (r, w') ↔
      c = .reply ∧ r = .ok () ∧ w' = { w with redis := w.redis.del keys } :=
  interp_reply rfl fun _ _ => rfl

/-- A batch of a scan has matching keys only, and what the iteration owes after it. -/
theorem interp_scan {cursor : Cursor} {pattern : String} {count : Nat}
    {r : Except Exn (Cursor × List String)}
    (answered : (interp db).answer c (.redis (.scan cursor pattern count)) w = some (r, w')) :
    ∃ next keys, r = .ok (next, keys) ∧ w' = w ∧
      (∀ key ∈ keys, globMatch pattern.toList key.toList = true) ∧
      ∀ k ∈ w.redis.owed pattern cursor, w.redis.live k = true →
        k.1 ∈ keys ∨ ∃ owed, next = some owed ∧ k ∈ owed := by
  cases c with
  | reply => cases answered
  | batch last keys =>
    change (w.redis.answer (.batch last keys) (.scan cursor pattern count)).map _ = _ at answered
    simp only [Redis.answer] at answered
    split at answered
    · rename_i allowed
      cases answered
      obtain ⟨matching, ended⟩ := Bool.and_eq_true_iff.mp allowed
      refine ⟨_, keys, rfl, rfl, List.all_eq_true.mp matching, ?_⟩
      intro k owed live
      by_cases returned : k.1 ∈ keys
      · exact .inl returned
      · have kept : k ∈ (w.redis.owed pattern cursor).filter fun k => k.1 ∉ keys := by
          simp [owed, returned]
        cases last with
        | false => exact .inr ⟨_, rfl, kept⟩
        | true =>
          simp only [Bool.not_true, Bool.false_or, List.all_eq_true] at ended
          have gone := ended k kept
          rw [live] at gone
          cases gone
    · cases answered

/-! In an undisturbed run these calls take no choice. -/

variable {out : Except Exn α}

@[simp] theorem eval_db {call : DbCall} {k : Except Exn call.Reply → Async api α} :
    Eval (interp db) (.await (.db call) k) w out w' ↔
      Eval (interp db) (k (w.tables.answer db call).1)
        { w with tables := (w.tables.answer db call).2 } out w' := by
  rw [Eval.await_iff]
  constructor
  · rintro ⟨c, r, v, answered, rest⟩
    obtain ⟨-, rfl, rfl⟩ := interp_db.mp answered
    exact rest
  · intro rest
    exact ⟨.reply, _, _, interp_db.mpr ⟨rfl, rfl, rfl⟩, rest⟩

@[simp] theorem eval_get {key : String} {k : Except Exn (Option QueryOutput) → Async api α} :
    Eval (interp db) (.await (.redis (.get key)) k) w out w' ↔
      Eval (interp db) (k (.ok (w.redis.get key))) w out w' := by
  rw [Eval.await_iff]
  constructor
  · rintro ⟨c, r, v, answered, rest⟩
    obtain ⟨-, rfl, rfl⟩ := interp_get.mp answered
    exact rest
  · intro rest
    exact ⟨.reply, _, _, interp_get.mpr ⟨rfl, rfl, rfl⟩, rest⟩

@[simp] theorem eval_set {key : String} {value : QueryOutput} {ttl : Nat}
    {k : Except Exn Unit → Async api α} :
    Eval (interp db) (.await (.redis (.set key value ttl)) k) w out w' ↔
      Eval (interp db) (k (.ok ())) { w with redis := w.redis.set key value } out w' := by
  rw [Eval.await_iff]
  constructor
  · rintro ⟨c, r, v, answered, rest⟩
    obtain ⟨-, rfl, rfl⟩ := interp_set.mp answered
    exact rest
  · intro rest
    exact ⟨.reply, _, _, interp_set.mpr ⟨rfl, rfl, rfl⟩, rest⟩

end Calls

/-- A Redis server that answers every `SCAN` with all matching keys at once. -/
def scanAll : Call → World → Choice
  | .redis (.scan _ pattern _), w => .batch true
      ((w.redis.entries.filter fun e => globMatch pattern.toList e.key.toList).map Entry.key)
  | _, _ => .reply

/-! ## Without a cache -/

def Tables.answerCacheless (db : QueryEngine) (T : Tables) :
    (call : Call) → Except Exn call.Reply × Tables
  | .db call => T.answer db call
  | .redis (.get _) => (.ok none, T)
  | .redis (.set _ _ _) => (.ok (), T)
  | .redis (.scan _ _ _) => (.ok (none, []), T)
  | .redis (.del _) => (.ok (), T)

def cacheless (db : QueryEngine) : Interp api Tables Unit :=
  ⟨fun _ call T => some (T.answerCacheless db call)⟩

/-- The service with no cache. -/
def cachelessServer (db : QueryEngine) (cfg : Config) (rounds : Nat) :
    Server api Request Tables Unit Empty Response where
  interp := cacheless db
  handle := Request.handle cfg rounds
  env e := nomatch e

/-- Run a program without a cache. -/
def direct {α : Type} (db : QueryEngine) (p : Async api α) (T : Tables) :
    Option (Except Exn α × Tables) :=
  p.run (cacheless db) (fun _ _ => ()) T

section Direct

variable {db : QueryEngine} {α β : Type} {T : Tables}

@[simp] theorem direct_pure (a : α) : direct db (.pure a) T = some (.ok a, T) := rfl

@[simp] theorem direct_throw (e : Exn) :
    direct db (.throw e : Async api α) T = some (.error e, T) := rfl

@[simp] theorem direct_diverge : direct db (.diverge : Async api α) T = none := rfl

@[simp] theorem direct_db {call : DbCall} {k : Except Exn call.Reply → Async api α} :
    direct db (.await (.db call) k) T =
      direct db (k (T.answer db call).1) (T.answer db call).2 := rfl

@[simp] theorem direct_get {key : String} {k : Except Exn (Option QueryOutput) → Async api α} :
    direct db (.await (.redis (.get key)) k) T = direct db (k (.ok none)) T := rfl

@[simp] theorem direct_set {key : String} {value : QueryOutput} {ttl : Nat}
    {k : Except Exn Unit → Async api α} :
    direct db (.await (.redis (.set key value ttl)) k) T = direct db (k (.ok ())) T := rfl

@[simp] theorem direct_scan {cursor : Cursor} {pattern : String} {count : Nat}
    {k : Except Exn (Cursor × List String) → Async api α} :
    direct db (.await (.redis (.scan cursor pattern count)) k) T =
      direct db (k (.ok (none, []))) T := rfl

theorem direct_bind {p : Async api α} {a : α} {T' : Tables} (f : α → Async api β)
    (first : direct db p T = some (.ok a, T')) : direct db (p >>= f) T = direct db (f a) T' :=
  Async.run_bind f first

theorem direct_bind_tryCatch {p : Async api α} {a : α} {T' : Tables} (f : α → Async api β)
    (h : Exn → Async api β) (first : direct db p T = some (.ok a, T')) :
    direct db ((p >>= f).tryCatch h) T = direct db ((f a).tryCatch h) T' :=
  Async.run_bind_tryCatch (I := cacheless db) f h first

theorem eval_cacheless_iff {p : Async api α} {out : Except Exn α} {T' : Tables} :
    Eval (cacheless db) p T out T' ↔ direct db p T = some (out, T') :=
  Eval.iff_run fun _ _ _ => rfl

@[simp] theorem eval_cacheless_db {call : DbCall} {k : Except Exn call.Reply → Async api α}
    {out : Except Exn α} {T' : Tables} :
    Eval (cacheless db) (.await (.db call) k) T out T' ↔
      Eval (cacheless db) (k (T.answer db call).1) (T.answer db call).2 out T' := by
  rw [eval_cacheless_iff, eval_cacheless_iff, direct_db]

end Direct

/-- The answer of a query as the tables give it. -/
def fresh (db : QueryEngine) (cfg : Config) (T : Tables) (q : Query) : Option QueryOutput :=
  match direct db (q.handle cfg) T with
  | some (.ok out, _) => some out
  | _ => none

end RestaurantAssistant
