import Mathlib.Data.Option.Basic

/-!
# Programs that await calls

An `async` function runs without interruption from one `await` to the next.
`Async σ α` keeps exactly that structure: a program is finished, or has thrown,
or is suspended at one awaited call with a continuation for the call's outcome
(a reply, or the exception the call rejects with).

* `Async.bind` and `Async.tryCatch` make it the monad the source is written in.
* `Eval I p s out t`: run alone from `s`, the program `p` ends with `out` in `t`.
  `EvalAmid` is the same with steps of an environment at the await points.
* `Async.run` evaluates a program with a chooser for the answers left open.
* `Async.wp` folds a specification of the single calls over a program.
-/

namespace Awaiting

/-- The calls a program may await, the reply each of them resolves with, and
the exceptions that calls and programs throw. -/
structure Signature where
  Call : Type
  Reply : Call → Type
  Exn : Type

/-- A program suspended at its next await, or finished.  `diverge` is a
synchronous loop that never comes back to an await. -/
inductive Async (σ : Signature) (α : Type) : Type
  | pure (a : α)
  | throw (e : σ.Exn)
  | await (call : σ.Call) (k : Except σ.Exn (σ.Reply call) → Async σ α)
  | diverge

namespace Async

variable {σ : Signature} {α β : Type}

/-- Sequencing: an exception skips the rest. -/
def bind : Async σ α → (α → Async σ β) → Async σ β
  | .pure a, f => f a
  | .throw e, _ => .throw e
  | .await call k, f => .await call fun r => (k r).bind f
  | .diverge, _ => .diverge

/-- `try { p } catch (e) { h(e) }`. -/
def tryCatch : Async σ α → (σ.Exn → Async σ α) → Async σ α
  | .pure a, _ => .pure a
  | .throw e, h => h e
  | .await call k, h => .await call fun r => (k r).tryCatch h
  | .diverge, _ => .diverge

/-- A finished program with a given outcome. -/
def ofExcept : Except σ.Exn α → Async σ α
  | .ok a => .pure a
  | .error e => .throw e

/-- `await` of one call: a rejection is thrown. -/
@[simp] def call (c : σ.Call) : Async σ (σ.Reply c) := .await c ofExcept

instance : Monad (Async σ) where
  pure := .pure
  bind := Async.bind

@[simp] theorem pure_eq (a : α) : (Pure.pure a : Async σ α) = .pure a := rfl

@[simp] theorem pure_bind (a : α) (f : α → Async σ β) : (.pure a : Async σ α) >>= f = f a := rfl

@[simp] theorem throw_bind (e : σ.Exn) (f : α → Async σ β) :
    (.throw e : Async σ α) >>= f = .throw e := rfl

@[simp] theorem await_bind (c : σ.Call) (k : Except σ.Exn (σ.Reply c) → Async σ α)
    (f : α → Async σ β) : (.await c k : Async σ α) >>= f = .await c fun r => k r >>= f := rfl

@[simp] theorem diverge_bind (f : α → Async σ β) :
    (.diverge : Async σ α) >>= f = .diverge := rfl

@[simp] theorem map_eq (f : α → β) (p : Async σ α) : f <$> p = p >>= fun a => .pure (f a) := rfl

theorem bind_assoc {γ : Type} (p : Async σ α) (f : α → Async σ β) (g : β → Async σ γ) :
    (p >>= f) >>= g = p >>= fun a => f a >>= g := by
  induction p with
  | pure a => rfl
  | throw e => rfl
  | diverge => rfl
  | await c k ih =>
    simp only [await_bind]
    congr 1
    funext r
    exact ih r

@[simp] theorem tryCatch_pure (a : α) (h : σ.Exn → Async σ α) :
    tryCatch (.pure a) h = .pure a := rfl

@[simp] theorem tryCatch_throw (e : σ.Exn) (h : σ.Exn → Async σ α) :
    tryCatch (.throw e) h = h e := rfl

@[simp] theorem tryCatch_await (c : σ.Call) (k : Except σ.Exn (σ.Reply c) → Async σ α)
    (h : σ.Exn → Async σ α) :
    tryCatch (.await c k) h = .await c fun r => (k r).tryCatch h := rfl

@[simp] theorem tryCatch_diverge (h : σ.Exn → Async σ α) :
    tryCatch (.diverge : Async σ α) h = .diverge := rfl

/-- The program has returned or thrown. -/
def finished : Async σ α → Bool
  | .pure _ => true
  | .throw _ => true
  | .await _ _ => false
  | .diverge => false

/-- The call the program is suspended at. -/
def next? : Async σ α → Option σ.Call
  | .await c _ => some c
  | _ => none

/-- The value the program has returned. -/
def result? : Async σ α → Option α
  | .pure a => some a
  | _ => none

theorem result?_eq_some {p : Async σ α} {a : α} : p.result? = some a ↔ p = .pure a := by
  cases p <;> simp [result?]

theorem next?_of_finished {p : Async σ α} (finished : p.finished = true) : p.next? = none := by
  cases p with
  | await c k => cases finished
  | _ => rfl

end Async

/-- What awaited calls do: `answer c call s` is the outcome of `call` in the
shared state `s` and the state after it, where the choice `c` settles whatever
the callee is free to decide; `none` is a choice the callee may not make. -/
structure Interp (σ : Signature) (S C : Type) where
  answer : C → (call : σ.Call) → S → Option (Except σ.Exn (σ.Reply call) × S)

variable {σ : Signature} {S C α β : Type}

/-- `Eval I p s out t`: the program `p`, started in `s` and undisturbed, ends
with `out` in `t`. -/
inductive Eval (I : Interp σ S C) : Async σ α → S → Except σ.Exn α → S → Prop
  | pure {a : α} {s : S} : Eval I (.pure a) s (.ok a) s
  | throw {e : σ.Exn} {s : S} : Eval I (.throw e) s (.error e) s
  | await {call : σ.Call} {k : Except σ.Exn (σ.Reply call) → Async σ α} {s s' t : S}
      {r : Except σ.Exn (σ.Reply call)} {out : Except σ.Exn α} (c : C) :
      I.answer c call s = some (r, s') → Eval I (k r) s' out t → Eval I (.await call k) s out t

/-- The calls a program has made, latest first, each with the state it was made
in. -/
abbrev History (σ : Signature) (S : Type) := List (σ.Call × S)

/-- `EvalAmid I env h p s out t`: as `Eval`, but while the program is suspended
at an await, `env` may change the state.  What `env` may do depends on the
history `h` of the program's calls so far. -/
inductive EvalAmid (I : Interp σ S C) (env : History σ S → S → S → Prop) :
    History σ S → Async σ α → S → Except σ.Exn α → S → Prop
  | pure {h : History σ S} {a : α} {s : S} : EvalAmid I env h (.pure a) s (.ok a) s
  | throw {h : History σ S} {e : σ.Exn} {s : S} : EvalAmid I env h (.throw e) s (.error e) s
  | await {h : History σ S} {call : σ.Call} {k : Except σ.Exn (σ.Reply call) → Async σ α}
      {s s' t : S} {r : Except σ.Exn (σ.Reply call)} {out : Except σ.Exn α} (c : C) :
      I.answer c call s = some (r, s') → EvalAmid I env ((call, s) :: h) (k r) s' out t →
      EvalAmid I env h (.await call k) s out t
  | interfere {h : History σ S} {call : σ.Call} {k : Except σ.Exn (σ.Reply call) → Async σ α}
      {s s' t : S} {out : Except σ.Exn α} :
      env h s s' → EvalAmid I env h (.await call k) s' out t →
      EvalAmid I env h (.await call k) s out t

section EvalRules

variable {I : Interp σ S C} {env : History σ S → S → S → Prop} {p : Async σ α} {s t : S}
  {out : Except σ.Exn α}

/-- **The invariant rule.**  What every own step and every interfering step
keeps still holds of the finished program. -/
theorem EvalAmid.preserves {h : History σ S} (J : History σ S → Async σ α → S → Prop)
    (own : ∀ {h call k c s r s'}, J h (.await call k) s → I.answer c call s = some (r, s') →
      J ((call, s) :: h) (k r) s')
    (other : ∀ {h call k s s'}, J h (.await call k) s → env h s s' → J h (.await call k) s')
    (run : EvalAmid I env h p s out t) (start : J h p s) : ∃ h', J h' (.ofExcept out) t := by
  induction run with
  | pure => exact ⟨_, start⟩
  | throw => exact ⟨_, start⟩
  | await c answered _ ih => exact ih (own start answered)
  | interfere step _ ih => exact ih (other start step)

/-- An undisturbed run is a run amid any interference. -/
theorem Eval.amid {h : History σ S} (run : Eval I p s out t) : EvalAmid I env h p s out t := by
  induction run generalizing h with
  | pure => exact .pure
  | throw => exact .throw
  | await c answered _ ih => exact .await c answered ih

theorem Eval.pure_iff {a : α} : Eval I (.pure a) s out t ↔ out = .ok a ∧ t = s := by
  constructor
  · intro run
    cases run
    exact ⟨rfl, rfl⟩
  · rintro ⟨rfl, rfl⟩
    exact .pure

theorem Eval.throw_iff {e : σ.Exn} : Eval I (.throw e) s out t ↔ out = .error e ∧ t = s := by
  constructor
  · intro run
    cases run
    exact ⟨rfl, rfl⟩
  · rintro ⟨rfl, rfl⟩
    exact .throw

theorem Eval.not_diverge : ¬ Eval I (.diverge : Async σ α) s out t := by
  intro run
  cases run

theorem Eval.await_iff {call : σ.Call} {k : Except σ.Exn (σ.Reply call) → Async σ α} :
    Eval I (.await call k) s out t ↔
      ∃ c r s', I.answer c call s = some (r, s') ∧ Eval I (k r) s' out t := by
  constructor
  · intro run
    cases run with
    | await c answered rest => exact ⟨c, _, _, answered, rest⟩
  · rintro ⟨c, r, s', answered, rest⟩
    exact .await c answered rest

/-- A sequence runs its first part to a value and goes on from there, or stops
with the first part's exception. -/
theorem Eval.bind_iff {f : α → Async σ β} {out : Except σ.Exn β} :
    Eval I (p >>= f) s out t ↔
      (∃ a s', Eval I p s (.ok a) s' ∧ Eval I (f a) s' out t) ∨
        ∃ e, Eval I p s (.error e) t ∧ out = .error e := by
  induction p generalizing s with
  | pure a =>
    constructor
    · intro run
      exact .inl ⟨a, s, .pure, run⟩
    · rintro (⟨a', s', first, rest⟩ | ⟨e, first, _⟩)
      · cases first
        exact rest
      · cases first
  | throw e =>
    constructor
    · intro run
      cases run
      exact .inr ⟨e, .throw, rfl⟩
    · rintro (⟨a, s', first, _⟩ | ⟨e', first, rfl⟩)
      · cases first
      · cases first
        exact .throw
  | diverge => simp [Eval.not_diverge]
  | await call k ih =>
    simp only [Async.await_bind, Eval.await_iff, ih]
    constructor
    · rintro ⟨c, r, s', answered, ⟨a, s'', first, rest⟩ | ⟨e, first, rfl⟩⟩
      · exact .inl ⟨a, s'', ⟨c, r, s', answered, first⟩, rest⟩
      · exact .inr ⟨e, ⟨c, r, s', answered, first⟩, rfl⟩
    · rintro (⟨a, s'', ⟨c, r, s', answered, first⟩, rest⟩ | ⟨e, ⟨c, r, s', answered, first⟩, rfl⟩)
      · exact ⟨c, r, s', answered, .inl ⟨a, s'', first, rest⟩⟩
      · exact ⟨c, r, s', answered, .inr ⟨e, first, rfl⟩⟩

theorem Eval.map_iff {f : α → β} {out : Except σ.Exn β} :
    Eval I (f <$> p) s out t ↔ ∃ out', Eval I p s out' t ∧ out = out'.map f := by
  rw [Async.map_eq, Eval.bind_iff]
  constructor
  · intro run
    rcases run with ⟨a, s', first, rest⟩ | ⟨e, first, same⟩
    · obtain ⟨rfl, rfl⟩ := Eval.pure_iff.mp rest
      exact ⟨.ok a, first, rfl⟩
    · exact ⟨.error e, first, same⟩
  · intro run
    obtain ⟨out', first, rfl⟩ := run
    cases out' with
    | ok a => exact .inl ⟨a, t, first, .pure⟩
    | error e => exact .inr ⟨e, first, rfl⟩

/-- A protected block returns what its body returns, or runs the handler on
the exception the body threw. -/
theorem Eval.tryCatch_iff {h : σ.Exn → Async σ α} :
    Eval I (p.tryCatch h) s out t ↔
      (∃ a, Eval I p s (.ok a) t ∧ out = .ok a) ∨
        ∃ e s', Eval I p s (.error e) s' ∧ Eval I (h e) s' out t := by
  induction p generalizing s with
  | pure a =>
    constructor
    · intro run
      cases run
      exact .inl ⟨a, .pure, rfl⟩
    · rintro (⟨a', body, rfl⟩ | ⟨e, s', body, _⟩)
      · cases body
        exact .pure
      · cases body
  | throw e =>
    constructor
    · intro run
      exact .inr ⟨e, s, .throw, run⟩
    · rintro (⟨a, body, _⟩ | ⟨e', s', body, handler⟩)
      · cases body
      · cases body
        exact handler
  | diverge => simp [Eval.not_diverge]
  | await call k ih =>
    simp only [Async.tryCatch_await, Eval.await_iff, ih]
    constructor
    · rintro ⟨c, r, s', answered, ⟨a, body, rfl⟩ | ⟨e, s'', body, handler⟩⟩
      · exact .inl ⟨a, ⟨c, r, s', answered, body⟩, rfl⟩
      · exact .inr ⟨e, s'', ⟨c, r, s', answered, body⟩, handler⟩
    · rintro (⟨a, ⟨c, r, s', answered, body⟩, rfl⟩ |
        ⟨e, s'', ⟨c, r, s', answered, body⟩, handler⟩)
      · exact ⟨c, r, s', answered, .inl ⟨a, body, rfl⟩⟩
      · exact ⟨c, r, s', answered, .inr ⟨e, s'', body, handler⟩⟩

/-- As `I`, but a call that `mayFail` admits may also throw `error`, without
effect. -/
def Interp.failing (I : Interp σ S C) (mayFail : σ.Call → Bool) (error : σ.Exn) :
    Interp σ S (Option C) where
  answer
    | some c, call, s => I.answer c call s
    | none, call, s => if mayFail call then some (.error error, s) else none

/-- A call is answered, or it fails. -/
theorem Eval.failing_iff {mayFail : σ.Call → Bool} {error : σ.Exn} {call : σ.Call}
    {k : Except σ.Exn (σ.Reply call) → Async σ α} :
    Eval (I.failing mayFail error) (.await call k) s out t ↔
      (∃ c r s', I.answer c call s = some (r, s') ∧ Eval (I.failing mayFail error) (k r) s' out t) ∨
        mayFail call = true ∧ Eval (I.failing mayFail error) (k (.error error)) s out t := by
  rw [Eval.await_iff]
  constructor
  · intro run
    obtain ⟨c, r, s', answered, rest⟩ := run
    cases c with
    | some c => exact .inl ⟨c, r, s', answered, rest⟩
    | none =>
      simp only [Interp.failing] at answered
      split at answered
      · rename_i fails
        cases answered
        exact .inr ⟨fails, rest⟩
      · cases answered
  · intro run
    rcases run with ⟨c, r, s', answered, rest⟩ | ⟨fails, rest⟩
    · exact ⟨some c, r, s', answered, rest⟩
    · exact ⟨none, .error error, s, if_pos fails, rest⟩

end EvalRules

/-! ## Evaluation with a chooser -/

/-- Run a program to its end, taking the choice `pick call s` at each await.
`none` when the program diverges or a choice is refused. -/
def Async.run (I : Interp σ S C) (pick : σ.Call → S → C) :
    Async σ α → S → Option (Except σ.Exn α × S)
  | .pure a, s => some (.ok a, s)
  | .throw e, s => some (.error e, s)
  | .diverge, _ => none
  | .await call k, s =>
    match I.answer (pick call s) call s with
    | some (r, s') => (k r).run I pick s'
    | none => none

section RunRules

variable {I : Interp σ S C} {pick : σ.Call → S → C} {s : S}

@[simp] theorem Async.run_pure (a : α) : (.pure a : Async σ α).run I pick s = some (.ok a, s) := rfl

@[simp] theorem Async.run_throw (e : σ.Exn) :
    (.throw e : Async σ α).run I pick s = some (.error e, s) := rfl

@[simp] theorem Async.run_diverge : (.diverge : Async σ α).run I pick s = none := rfl

theorem Async.run_bind {p : Async σ α} {a : α} {t : S} (f : α → Async σ β)
    (first : p.run I pick s = some (.ok a, t)) : (p >>= f).run I pick s = (f a).run I pick t := by
  induction p generalizing s with
  | pure a' =>
    cases first
    rfl
  | throw e => cases first
  | diverge => cases first
  | await call k ih =>
    simp only [Async.run] at first
    simp only [Async.await_bind, Async.run]
    split at first
    · exact ih _ first
    · cases first

/-- The same under a handler, which the first part does not need. -/
theorem Async.run_bind_tryCatch {p : Async σ α} {a : α} {t : S} (f : α → Async σ β)
    (h : σ.Exn → Async σ β) (first : p.run I pick s = some (.ok a, t)) :
    ((p >>= f).tryCatch h).run I pick s = ((f a).tryCatch h).run I pick t := by
  induction p generalizing s with
  | pure a' =>
    cases first
    rfl
  | throw e => cases first
  | diverge => cases first
  | await call k ih =>
    simp only [Async.run] at first
    simp only [Async.await_bind, Async.tryCatch_await, Async.run]
    split at first
    · exact ih _ first
    · cases first

end RunRules

theorem Eval.of_run {I : Interp σ S C} {pick : σ.Call → S → C} {p : Async σ α} {s t : S}
    {out : Except σ.Exn α} (run : p.run I pick s = some (out, t)) : Eval I p s out t := by
  induction p generalizing s with
  | pure a =>
    cases run
    exact .pure
  | throw e =>
    cases run
    exact .throw
  | diverge => cases run
  | await call k ih =>
    simp only [Async.run] at run
    split at run
    · rename_i r s' answered
      exact .await _ answered (ih _ run)
    · cases run

/-- With one choice at every call, running is evaluating. -/
theorem Eval.iff_run {I : Interp σ S C} {pick : σ.Call → S → C} (only : ∀ c call s, c = pick call s)
    {p : Async σ α} {s t : S} {out : Except σ.Exn α} :
    Eval I p s out t ↔ p.run I pick s = some (out, t) := by
  refine ⟨fun run => ?_, Eval.of_run⟩
  induction run with
  | pure => rfl
  | throw => rfl
  | @await call k s s' t r out c answered _ ih =>
    rw [only c call s] at answered
    simp only [Async.run, answered]
    exact ih

/-! ## Specifications folded over a program -/

/-- Fold a specification of the single calls over a program: `Φ call Q` says
that the call may be made here and that every outcome it can have satisfies
`Q`; `post` is what the program's own outcome satisfies. -/
def Async.wp (Φ : (call : σ.Call) → (Except σ.Exn (σ.Reply call) → Prop) → Prop)
    (post : Except σ.Exn α → Prop) : Async σ α → Prop
  | .pure a => post (.ok a)
  | .throw e => post (.error e)
  | .diverge => True
  | .await call k => Φ call fun r => (k r).wp Φ post

section WpRules

variable {Φ : (call : σ.Call) → (Except σ.Exn (σ.Reply call) → Prop) → Prop}
  {post post' : Except σ.Exn α → Prop} {p : Async σ α}

theorem Async.wp_bind {f : α → Async σ β} {post : Except σ.Exn β → Prop} :
    (p >>= f).wp Φ post ↔ p.wp Φ fun
      | .ok a => (f a).wp Φ post
      | .error e => post (.error e) := by
  induction p with
  | pure a => rfl
  | throw e => rfl
  | diverge => rfl
  | await call k ih =>
    have each : (fun r => (k r >>= f).wp Φ post) = fun r => (k r).wp Φ fun
        | .ok a => (f a).wp Φ post
        | .error e => post (.error e) := funext fun r => propext (ih r)
    rw [Async.await_bind, Async.wp, each, Async.wp]

theorem Async.wp_tryCatch {h : σ.Exn → Async σ α} :
    (p.tryCatch h).wp Φ post ↔ p.wp Φ fun
      | .ok a => post (.ok a)
      | .error e => (h e).wp Φ post := by
  induction p with
  | pure a => rfl
  | throw e => rfl
  | diverge => rfl
  | await call k ih =>
    have each : (fun r => ((k r).tryCatch h).wp Φ post) = fun r => (k r).wp Φ fun
        | .ok a => post (.ok a)
        | .error e => (h e).wp Φ post := funext fun r => propext (ih r)
    rw [Async.tryCatch_await, Async.wp, each, Async.wp]

theorem Async.wp_mono (monotone : ∀ call Q Q', (∀ r, Q r → Q' r) → Φ call Q → Φ call Q')
    (weaker : ∀ r, post r → post' r) (met : p.wp Φ post) : p.wp Φ post' := by
  induction p with
  | pure a => exact weaker _ met
  | throw e => exact weaker _ met
  | diverge => trivial
  | await call k ih => exact monotone call _ _ (fun r => ih r) met

end WpRules

end Awaiting
