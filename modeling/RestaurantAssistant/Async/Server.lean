import RestaurantAssistant.Async.Program

/-!
# Servers of awaiting programs

A `Server` answers requests by programs over one shared state; an environment
(expiring entries, say) may change that state at any time.

* `Server.Session` is the sequential use: each request runs to completion
  before the next one starts.
* `Pool` is the concurrent use: any number of requests in flight, each resumed
  at its await points in any order.  A request keeps the history of its own
  calls, each with the shared state it was made in; the history is never read
  by the programs.
* `Server.run_preserves` and `Server.run_preserves_always` are the invariant
  rules: for the pool as a whole, and with what each request's program keeps true
  by itself (`Async.Always`) whatever the others do.
-/

namespace Awaiting

variable {σ : Signature} {ρ S C E α : Type}

/-- Programs for requests `ρ`, the meaning of their calls, and the
environment's own steps. -/
structure Server (σ : Signature) (ρ S C E α : Type) where
  interp : Interp σ S C
  handle : ρ → Async σ α
  env : E → S → S

/-! ## One request after the other -/

/-- `V.Session ok s log t`: from `s`, the requests of `log` were served one
after the other, each permitted by `ok` in the state it met and each with the
outcome recorded, and the state is now `t`.  The environment acts between
requests. -/
inductive Server.Session (V : Server σ ρ S C E α) (ok : S → ρ → Prop) (s : S) :
    List (ρ × Except σ.Exn α) → S → Prop
  | nil : V.Session ok s [] s
  | request {log : List (ρ × Except σ.Exn α)} {t u : S} {r : ρ} {out : Except σ.Exn α} :
      V.Session ok s log t → ok t r → Eval V.interp (V.handle r) t out u →
      V.Session ok s (log ++ [(r, out)]) u
  | env {log : List (ρ × Except σ.Exn α)} {t : S} (e : E) :
      V.Session ok s log t → V.Session ok s log (V.env e t)

/-- What every permitted request and every environment step keeps holds after
every session. -/
theorem Server.Session.preserves {V : Server σ ρ S C E α} {ok : S → ρ → Prop} {s t : S}
    {log : List (ρ × Except σ.Exn α)} (inv : List (ρ × Except σ.Exn α) → S → Prop)
    (request : ∀ {log t r out u}, inv log t → ok t r → Eval V.interp (V.handle r) t out u →
      inv (log ++ [(r, out)]) u)
    (env : ∀ {log t} e, inv log t → inv log (V.env e t))
    (session : V.Session ok s log t) (start : inv [] s) : inv log t := by
  induction session with
  | nil => exact start
  | request _ permitted served ih => exact request ih permitted served
  | env e _ ih => exact env e ih

/-- Serve requests one after the other with a chooser for the open answers:
their outcomes and the final state. -/
def Server.respond (V : Server σ ρ S C E α) (pick : σ.Call → S → C) :
    List ρ → S → Option (List (Except σ.Exn α) × S)
  | [], s => some ([], s)
  | r :: rs, s =>
    match (V.handle r).run V.interp pick s with
    | some (out, t) => (V.respond pick rs t).map fun (outs, u) => (out :: outs, u)
    | none => none

/-- One more request at the end. -/
theorem Server.respond_concat {V : Server σ ρ S C E α} {pick : σ.Call → S → C} {rs : List ρ}
    {r : ρ} {s t u : S} {outs : List (Except σ.Exn α)} {out : Except σ.Exn α}
    (before : V.respond pick rs s = some (outs, t))
    (last : (V.handle r).run V.interp pick t = some (out, u)) :
    V.respond pick (rs ++ [r]) s = some (outs ++ [out], u) := by
  induction rs generalizing s outs with
  | nil =>
    cases before
    simp [Server.respond, last]
  | cons r' rs ih =>
    simp only [Server.respond] at before
    split at before
    · rename_i out' t' ran
      obtain ⟨⟨outs', u'⟩, rest, same⟩ := Option.map_eq_some_iff.mp before
      cases same
      simp [Server.respond, ran, ih rest]
    · cases before

/-- The same, stopped at a request that fails a check. -/
def Server.checkedRespond (V : Server σ ρ S C E α) (check : S → ρ → Bool)
    (pick : σ.Call → S → C) : List ρ → S → Option (List (Except σ.Exn α) × S)
  | [], s => some ([], s)
  | r :: rs, s =>
    if check s r then
      match (V.handle r).run V.interp pick s with
      | some (out, t) => (V.checkedRespond check pick rs t).map fun (outs, u) => (out :: outs, u)
      | none => none
    else none

/-- What the chooser serves is a session. -/
theorem Server.Session.append_respond {V : Server σ ρ S C E α} {pick : σ.Call → S → C}
    {ok : S → ρ → Prop} {check : S → ρ → Bool} {s t u : S} {log : List (ρ × Except σ.Exn α)}
    {rs : List ρ} {outs : List (Except σ.Exn α)} (session : V.Session ok s log t)
    (sound : ∀ t r, check t r = true → ok t r)
    (served : V.checkedRespond check pick rs t = some (outs, u)) :
    V.Session ok s (log ++ rs.zip outs) u := by
  induction rs generalizing log t outs with
  | nil =>
    cases served
    simpa using session
  | cons r rs ih =>
    simp only [Server.checkedRespond] at served
    split at served
    · rename_i permitted
      split at served
      · rename_i out t' ran
        obtain ⟨⟨outs', u'⟩, rest, same⟩ := Option.map_eq_some_iff.mp served
        cases same
        have later := ih (.request session (sound t r permitted) (.of_run ran)) rest
        simpa using later
      · cases served
    · cases served

/-! ## Requests in flight together -/

/-- A request being served: its history (latest call first) and what is left
of its program. -/
structure Proc (σ : Signature) (ρ S α : Type) where
  request : ρ
  history : History σ S
  prog : Async σ α

/-- The shared state and all requests that have arrived, finished ones
included. -/
structure Pool (σ : Signature) (ρ S α : Type) where
  shared : S
  procs : List (Proc σ ρ S α)

/-- What can happen next: a request arrives, one is resumed (its awaited call
is answered and it runs to its next await), or the environment acts. -/
inductive Event (ρ C E : Type)
  | arrive (request : ρ)
  | resume (i : Nat) (choice : C)
  | env (e : E)

/-- Advance a request past a call made in the state `s`. -/
def Proc.resumed (proc : Proc σ ρ S α) (call : σ.Call) (s : S) (rest : Async σ α) :
    Proc σ ρ S α :=
  ⟨proc.request, (call, s) :: proc.history, rest⟩

/-- One event; `none` if it cannot happen here. -/
def Server.fire (V : Server σ ρ S C E α) : Event ρ C E → Pool σ ρ S α → Option (Pool σ ρ S α)
  | .arrive r, P => some { P with procs := P.procs ++ [⟨r, [], V.handle r⟩] }
  | .resume i c, P =>
    match P.procs[i]? with
    | none => none
    | some proc =>
      match proc.prog with
      | .await call k =>
        match V.interp.answer c call P.shared with
        | some (r, s') => some ⟨s', P.procs.set i (proc.resumed call P.shared (k r))⟩
        | none => none
      | _ => none
  | .env e, P => some { P with shared := V.env e P.shared }

/-- A sequence of events. -/
def Server.run (V : Server σ ρ S C E α) : List (Event ρ C E) → Pool σ ρ S α →
    Option (Pool σ ρ S α)
  | [], P => some P
  | e :: es, P =>
    match V.fire e P with
    | some P' => V.run es P'
    | none => none

/-- The same run, stopped at an event that fails a check. -/
def Server.checkedRun (V : Server σ ρ S C E α) (check : Pool σ ρ S α → Event ρ C E → Bool) :
    List (Event ρ C E) → Pool σ ρ S α → Option (Pool σ ρ S α)
  | [], P => some P
  | e :: es, P =>
    if check P e then
      match V.fire e P with
      | some P' => V.checkedRun check es P'
      | none => none
    else none

/-- Every event of the run meets `good` in the pool it happens in. -/
def Server.Along (V : Server σ ρ S C E α) (good : Pool σ ρ S α → Event ρ C E → Prop) :
    List (Event ρ C E) → Pool σ ρ S α → Prop
  | [], _ => True
  | e :: es, P => good P e ∧ ∀ P', V.fire e P = some P' → V.Along good es P'

/-- No request is in flight. -/
def Pool.Quiet (P : Pool σ ρ S α) : Prop := ∀ proc ∈ P.procs, proc.prog.finished = true

section Rules

variable {V : Server σ ρ S C E α} {P P' : Pool σ ρ S α} {e : Event ρ C E}
  {es : List (Event ρ C E)} {good : Pool σ ρ S α → Event ρ C E → Prop}

/-- Replacing one request leaves those before and after it alone. -/
theorem Pool.split {proc : Proc σ ρ S α} {i : Nat} (found : P.procs[i]? = some proc) :
    ∃ before after, P.procs = before ++ proc :: after ∧
      ∀ new, P.procs.set i new = before ++ new :: after := by
  obtain ⟨inRange, rfl⟩ := List.getElem?_eq_some_iff.mp found
  refine ⟨P.procs.take i, P.procs.drop (i + 1), ?_, ?_⟩
  · rw [List.getElem_cons_drop inRange, List.take_append_drop]
  · intro new
    rw [List.set_eq_take_append_cons_drop, if_pos inRange]

/-- Everything one event can do. -/
theorem Server.fire_cases (fired : V.fire e P = some P') :
    (∃ r, e = .arrive r ∧ P' = { P with procs := P.procs ++ [⟨r, [], V.handle r⟩] }) ∨
    (∃ i c proc call k r s', e = .resume i c ∧ P.procs[i]? = some proc ∧
      proc.prog = .await call k ∧ V.interp.answer c call P.shared = some (r, s') ∧
      P' = ⟨s', P.procs.set i (proc.resumed call P.shared (k r))⟩) ∨
    (∃ x, e = .env x ∧ P' = { P with shared := V.env x P.shared }) := by
  cases e with
  | arrive r =>
    cases fired
    exact .inl ⟨r, rfl, rfl⟩
  | env x =>
    cases fired
    exact .inr (.inr ⟨x, rfl, rfl⟩)
  | resume i c =>
    simp only [Server.fire] at fired
    split at fired
    · cases fired
    · rename_i proc found
      split at fired
      · rename_i call k suspended
        split at fired
        · rename_i r s' answered
          cases fired
          exact .inr (.inl ⟨i, c, proc, call, k, r, s', rfl, found, suspended, answered, rfl⟩)
        · cases fired
      · cases fired

/-- **The pool rule.**  What every event of a run keeps holds at its end. -/
theorem Server.run_preserves (inv : Pool σ ρ S α → Prop)
    (step : ∀ {P e P'}, inv P → good P e → V.fire e P = some P' → inv P')
    (ran : V.run es P = some P') (along : V.Along good es P) (start : inv P) : inv P' := by
  induction es generalizing P with
  | nil =>
    cases ran
    exact start
  | cons e es ih =>
    obtain ⟨here, later⟩ := along
    simp only [Server.run] at ran
    split at ran
    · rename_i Q fired
      exact ih ran (later Q fired) (step start here fired)
    · cases ran

/-- What every event meets in every pool. -/
theorem Server.Along.of_forall (each : ∀ e ∈ es, ∀ P, good P e) : V.Along good es P := by
  induction es generalizing P with
  | nil => trivial
  | cons e es ih =>
    refine ⟨each e List.mem_cons_self P, fun Q _ => ih ?_⟩
    intro e' member
    exact each e' (List.mem_cons_of_mem e member)

theorem Server.of_checkedRun {check : Pool σ ρ S α → Event ρ C E → Bool}
    (sound : ∀ P e, check P e = true → good P e) (ran : V.checkedRun check es P = some P') :
    V.run es P = some P' ∧ V.Along good es P := by
  induction es generalizing P with
  | nil => exact ⟨ran, trivial⟩
  | cons e es ih =>
    simp only [Server.checkedRun] at ran
    split at ran
    · rename_i checked
      split at ran
      · rename_i Q fired
        obtain ⟨rest, along⟩ := ih ran
        refine ⟨?_, sound P e checked, ?_⟩
        · simp only [Server.run, fired]
          exact rest
        · intro Q' fired'
          rw [fired] at fired'
          cases fired'
          exact along
      · cases ran
    · cases ran

end Rules

/-! ## What one program keeps true by itself -/

/-- `p.Always I inv h`: with history `h`, the program `p` satisfies `inv`, and
so does everything it becomes, whatever its calls are answered. -/
def Async.Always (I : Interp σ S C) (inv : History σ S → Async σ α → Prop) :
    Async σ α → History σ S → Prop
  | .pure a, h => inv h (.pure a)
  | .throw e, h => inv h (.throw e)
  | .diverge, h => inv h .diverge
  | .await call k, h => inv h (.await call k) ∧
      ∀ c s r s', I.answer c call s = some (r, s') → (k r).Always I inv ((call, s) :: h)

theorem Async.Always.here {I : Interp σ S C} {inv : History σ S → Async σ α → Prop}
    {p : Async σ α} {h : History σ S} (always : p.Always I inv h) : inv h p := by
  cases p with
  | pure a => exact always
  | throw e => exact always
  | diverge => exact always
  | await call k => exact always.1

theorem Async.Always.mono {I : Interp σ S C} {inv inv' : History σ S → Async σ α → Prop}
    (weaker : ∀ h p, inv h p → inv' h p) {p : Async σ α} {h : History σ S}
    (always : p.Always I inv h) : p.Always I inv' h := by
  induction p generalizing h with
  | pure a => exact weaker _ _ always
  | throw e => exact weaker _ _ always
  | diverge => exact weaker _ _ always
  | await call k ih =>
    exact ⟨weaker _ _ always.1, fun c s r s' answered => ih r (always.2 c s r s' answered)⟩

section AlwaysRules

variable {I : Interp σ S C} {p : Async σ α} {h : History σ S}

/-- Two invariants that hold always hold together. -/
theorem Async.Always.and {inv inv' : History σ S → Async σ α → Prop} (left : p.Always I inv h)
    (right : p.Always I inv' h) : p.Always I (fun h q => inv h q ∧ inv' h q) h := by
  induction p generalizing h with
  | pure a => exact ⟨left, right⟩
  | throw e => exact ⟨left, right⟩
  | diverge => exact ⟨left, right⟩
  | await call k ih =>
    exact ⟨⟨left.1, right.1⟩, fun c s r s' answered =>
      ih r (left.2 c s r s' answered) (right.2 c s r s' answered)⟩

theorem Async.Always.all {ι : Type} {inv : ι → History σ S → Async σ α → Prop}
    (each : ∀ i, p.Always I (inv i) h) : p.Always I (fun h q => ∀ i, inv i h q) h := by
  induction p generalizing h with
  | pure a => exact each
  | throw e => exact each
  | diverge => exact each
  | await call k ih =>
    exact ⟨fun i => (each i).1, fun c s r s' answered =>
      ih r fun i => (each i).2 c s r s' answered⟩

/-- What a history never loses holds from now on. -/
theorem Async.Always.of_history {inv : History σ S → Prop}
    (grows : ∀ step h, inv h → inv (step :: h)) (now : inv h) :
    p.Always I (fun h _ => inv h) h := by
  induction p generalizing h with
  | pure a => exact now
  | throw e => exact now
  | diverge => exact now
  | await call k ih => exact ⟨now, fun c s r s' _ => ih r (grows (call, s) h now)⟩

/-- Whatever a mapped program returns is a value of the map. -/
theorem Async.always_map {β : Type} (f : α → β) :
    (f <$> p).Always I (fun _ q => ∀ b, q = .pure b → ∃ a, b = f a) h := by
  rw [Async.map_eq]
  induction p generalizing h with
  | pure a =>
    intro b same
    cases same
    exact ⟨a, rfl⟩
  | throw e =>
    intro b same
    cases same
  | diverge =>
    intro b same
    cases same
  | await call k ih =>
    refine ⟨fun b same => ?_, fun c s r s' _ => ih r⟩
    cases same

end AlwaysRules

section ProgramRule

variable {V : Server σ ρ S C E α} {P P' : Pool σ ρ S α} {e : Event ρ C E}
  (inv : ρ → History σ S → Async σ α → Prop)

/-- Every request in the pool always satisfies its invariant. -/
def Pool.Always (P : Pool σ ρ S α) (I : Interp σ S C) : Prop :=
  ∀ proc ∈ P.procs, proc.prog.Always I (inv proc.request) proc.history

/-- One event keeps the programs' invariants, if a new request has its own. -/
theorem Server.fire_always
    (arrive : ∀ r, e = .arrive r → (V.handle r).Always V.interp (inv r) [])
    (fired : V.fire e P = some P') (held : P.Always inv V.interp) : P'.Always inv V.interp := by
  intro proc member
  rcases Server.fire_cases fired with ⟨r, rfl, rfl⟩ |
    ⟨i, c, old, call, k, r, s', rfl, found, suspended, answered, rfl⟩ | ⟨x, rfl, rfl⟩
  · rcases List.mem_append.mp member with member | member
    · exact held proc member
    · cases List.mem_singleton.mp member
      exact arrive r rfl
  · rcases List.mem_or_eq_of_mem_set member with member | rfl
    · exact held proc member
    · have before := held old (List.mem_of_getElem? found)
      rw [suspended] at before
      exact before.2 c P.shared r s' answered
  · exact held proc member

/-- **The program rule.**  If each request's program always satisfies that
request's invariant, every request of every reachable pool does, and an
invariant of the pool may rely on it at every step. -/
theorem Server.run_preserves_always {es : List (Event ρ C E)}
    {good : Pool σ ρ S α → Event ρ C E → Prop} (I : Pool σ ρ S α → Prop)
    (arrive : ∀ {P r}, good P (.arrive r) → (V.handle r).Always V.interp (inv r) [])
    (step : ∀ {P e P'}, P.Always inv V.interp → I P → good P e → V.fire e P = some P' → I P')
    (ran : V.run es P = some P') (along : V.Along good es P) (always : P.Always inv V.interp)
    (start : I P) : P'.Always inv V.interp ∧ I P' := by
  refine Server.run_preserves (fun Q => Q.Always inv V.interp ∧ I Q) ?_ ran along ⟨always, start⟩
  intro Q e Q' held here fired
  refine ⟨Server.fire_always inv ?_ fired held.1, step held.1 held.2 here fired⟩
  intro r same
  rw [same] at here
  exact arrive here

/-- Where no request has arrived, every request satisfies its invariant. -/
theorem Pool.always_nil {s : S} {I : Interp σ S C} :
    Pool.Always inv (⟨s, []⟩ : Pool σ ρ S α) I := by
  intro proc member
  cases member

end ProgramRule

end Awaiting
