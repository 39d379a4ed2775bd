import RestaurantAssistant.Async.Server
import Mathlib.Data.List.Forall2

/-!
# Programs over another representation

An `Embedding` represents the calls, outcomes and states of one signature by those of
another, and `Carries` says that the two interpretations of the calls agree on what is
represented.

`Follows K f p q`: the program `q` makes the calls of `p` in the other representation and
ends with `f` of what `p` ends with.  Two servers whose programs follow each other run in
lockstep (`Embedding.run_lockstep`): the same events can happen in both, in every order,
and the pools they reach represent each other.
-/

namespace Awaiting

variable {σ τ : Signature} {ρ S T C E α β γ δ : Type}

/-- How the program has ended, if it has. -/
def Async.outcome? : Async σ α → Option (Except σ.Exn α)
  | .pure a => some (.ok a)
  | .throw e => some (.error e)
  | _ => none

/-- What is seen of a pool: the shared state, and each request with the call it awaits or
how it has ended. -/
def Pool.view (P : Pool σ ρ S α) :
    S × List (ρ × Option σ.Call × Option (Except σ.Exn α)) :=
  (P.shared, P.procs.map fun proc => (proc.request, proc.prog.next?, proc.prog.outcome?))

structure Embedding (σ τ : Signature) (S T : Type) where
  call : σ.Call → τ.Call
  outcome : (c : σ.Call) → Except σ.Exn (σ.Reply c) → Except τ.Exn (τ.Reply (call c))
  exn : σ.Exn → τ.Exn
  state : S → T

namespace Embedding

/-- A represented call is answered as the call it stands for. -/
def Carries (K : Embedding σ τ S T) (I : Interp σ S C) (J : Interp τ T C) : Prop :=
  ∀ c call s, J.answer c (K.call call) (K.state s) =
    (I.answer c call s).map fun a => (K.outcome call a.1, K.state a.2)

/-- `q` is `p` in the other representation. -/
inductive Follows (K : Embedding σ τ S T) (f : α → β) : Async σ α → Async τ β → Prop
  | pure (a : α) : Follows K f (.pure a) (.pure (f a))
  | throw (e : σ.Exn) : Follows K f (.throw e) (.throw (K.exn e))
  | diverge : Follows K f .diverge .diverge
  | await {call : σ.Call} {k : Except σ.Exn (σ.Reply call) → Async σ α}
      {k' : Except τ.Exn (τ.Reply (K.call call)) → Async τ β} :
      (∀ r, Follows K f (k r) (k' (K.outcome call r))) →
      Follows K f (.await call k) (.await (K.call call) k')

variable {K : Embedding σ τ S T} {f : α → β} {p : Async σ α} {q : Async τ β}

theorem Follows.bind {g : γ → δ} {m : α → Async σ γ} {n : β → Async τ δ} (first : Follows K f p q)
    (rest : ∀ a, Follows K g (m a) (n (f a))) : Follows K g (p >>= m) (q >>= n) := by
  induction first with
  | pure a => exact rest a
  | throw e => exact .throw e
  | diverge => exact .diverge
  | await _ ih => exact .await ih

theorem Follows.map {g : γ → δ} {m : α → γ} {n : β → δ} (first : Follows K f p q)
    (same : ∀ a, n (f a) = g (m a)) : Follows K g (m <$> p) (n <$> q) := by
  rw [Async.map_eq, Async.map_eq]
  refine first.bind fun a => ?_
  rw [same]
  exact .pure (m a)

theorem Follows.tryCatch {h : σ.Exn → Async σ α} {h' : τ.Exn → Async τ β}
    (body : Follows K f p q) (handler : ∀ e, Follows K f (h e) (h' (K.exn e))) :
    Follows K f (p.tryCatch h) (q.tryCatch h') := by
  induction body with
  | pure a => exact .pure a
  | throw e => exact handler e
  | diverge => exact .diverge
  | await _ ih => exact .await ih

/-- The program with its calls sent in the other representation, and the outcomes read
back. -/
def send (K : Embedding σ τ S T)
    (back : (c : σ.Call) → Except τ.Exn (τ.Reply (K.call c)) → Except σ.Exn (σ.Reply c)) :
    Async σ α → Async τ α
  | .pure a => .pure a
  | .throw e => .throw (K.exn e)
  | .diverge => .diverge
  | .await c k => .await (K.call c) fun r => K.send back (k (back c r))

theorem follows_send
    {back : (c : σ.Call) → Except τ.Exn (τ.Reply (K.call c)) → Except σ.Exn (σ.Reply c)}
    (readBack : ∀ c r, back c (K.outcome c r) = r) : Follows K id p (K.send back p) := by
  induction p with
  | pure a => exact .pure a
  | throw e => exact .throw e
  | diverge => exact .diverge
  | await c k ih =>
    refine .await fun r => ?_
    rw [readBack]
    exact ih r

/-- A finished program's outcome in the other representation. -/
def result (K : Embedding σ τ S T) (f : α → β) : Except σ.Exn α → Except τ.Exn β
  | .ok a => .ok (f a)
  | .error e => .error (K.exn e)

theorem Follows.outcome? (follows : Follows K f p q) :
    q.outcome? = p.outcome?.map (K.result f) := by
  cases follows <;> rfl

theorem Follows.next? (follows : Follows K f p q) : q.next? = p.next?.map K.call := by
  cases follows <;> rfl

/-! ## Running in lockstep -/

/-- The requests are the same, and each is as far as its counterpart. -/
structure Agrees (K : Embedding σ τ S T) (f : α → β) (p : Proc σ ρ S α) (q : Proc τ ρ T β) :
    Prop where
  request : q.request = p.request
  history : q.history = p.history.map fun step => (K.call step.1, K.state step.2)
  prog : Follows K f p.prog q.prog

structure Represents (K : Embedding σ τ S T) (f : α → β) (P : Pool σ ρ S α) (Q : Pool τ ρ T β) :
    Prop where
  shared : Q.shared = K.state P.shared
  procs : List.Forall₂ (Agrees K f) P.procs Q.procs

theorem rel_cases {R : γ → δ → Prop} {x : Option γ} {y : Option δ} (rel : Option.Rel R x y) :
    x = none ∧ y = none ∨ ∃ a b, x = some a ∧ y = some b ∧ R a b := by
  cases rel with
  | none => exact .inl ⟨rfl, rfl⟩
  | some holds => exact .inr ⟨_, _, rfl, rfl, holds⟩

theorem forall₂_getElem? {R : γ → δ → Prop} {l : List γ} {m : List δ} (all : List.Forall₂ R l m)
    (i : Nat) : Option.Rel R l[i]? m[i]? := by
  induction all generalizing i with
  | nil => exact .none
  | cons first _ ih =>
    cases i with
    | zero => exact .some first
    | succ i => exact ih i

theorem forall₂_set {R : γ → δ → Prop} {l : List γ} {m : List δ} {x : γ} {y : δ}
    (all : List.Forall₂ R l m) (new : R x y) (i : Nat) :
    List.Forall₂ R (l.set i x) (m.set i y) := by
  induction all generalizing i with
  | nil => exact .nil
  | cons first rest ih =>
    cases i with
    | zero => exact .cons new rest
    | succ i => exact .cons first (ih i)

variable {V : Server σ ρ S C E α} {W : Server τ ρ T C E β} {P : Pool σ ρ S α} {Q : Pool τ ρ T β}

/-- The servers answer the same requests over states that represent each other. -/
structure Couples (K : Embedding σ τ S T) (f : α → β) (V : Server σ ρ S C E α)
    (W : Server τ ρ T C E β) : Prop where
  carries : K.Carries V.interp W.interp
  handle : ∀ r, Follows K f (V.handle r) (W.handle r)
  env : ∀ e s, W.env e (K.state s) = K.state (V.env e s)

theorem fire_lockstep (coupled : Couples K f V W) (e : Event ρ C E) (related : Represents K f P Q) :
    Option.Rel (Represents K f) (V.fire e P) (W.fire e Q) := by
  cases e with
  | arrive r =>
    refine .some ⟨related.shared, List.rel_append related.procs (.cons ⟨rfl, rfl, ?_⟩ .nil)⟩
    exact coupled.handle r
  | env x =>
    refine .some ⟨?_, related.procs⟩
    change W.env x Q.shared = K.state (V.env x P.shared)
    rw [related.shared, coupled.env]
  | resume i c =>
    simp only [Server.fire]
    rcases rel_cases (forall₂_getElem? related.procs i) with
      ⟨found, other⟩ | ⟨p, q, found, other, agrees⟩
    · rw [found, other]
      exact .none
    · rw [found, other]
      have follows := agrees.prog
      dsimp only
      generalize p.prog = program at follows ⊢
      generalize q.prog = program' at follows ⊢
      cases follows with
      | pure a => exact .none
      | throw e => exact .none
      | diverge => exact .none
      | @await call k k' rest =>
        simp only [related.shared, coupled.carries c call P.shared]
        cases answered : V.interp.answer c call P.shared with
        | none => exact .none
        | some a =>
          have resumed : Agrees K f (p.resumed call P.shared (k a.1))
              (q.resumed (K.call call) (K.state P.shared) (k' (K.outcome call a.1))) :=
            ⟨agrees.request, congrArg (_ :: ·) agrees.history, rest a.1⟩
          exact .some ⟨rfl, forall₂_set related.procs resumed i⟩

theorem Represents.view (related : Represents K f P Q) :
    Q.view = (K.state P.shared, P.procs.map fun proc =>
      (proc.request, proc.prog.next?.map K.call, proc.prog.outcome?.map (K.result f))) := by
  refine Prod.ext related.shared ?_
  have same : ∀ {l : List (Proc σ ρ S α)} {m : List (Proc τ ρ T β)},
      List.Forall₂ (Agrees K f) l m →
      m.map (fun proc => (proc.request, proc.prog.next?, proc.prog.outcome?)) =
        l.map fun proc =>
          (proc.request, proc.prog.next?.map K.call, proc.prog.outcome?.map (K.result f)) := by
    intro l m all
    induction all with
    | nil => rfl
    | cons first _ ih =>
      rw [List.map_cons, List.map_cons, ih, first.request, first.prog.next?, first.prog.outcome?]
  exact same related.procs

/-- **The lockstep rule.** -/
theorem run_lockstep (coupled : Couples K f V W) (es : List (Event ρ C E))
    (related : Represents K f P Q) : Option.Rel (Represents K f) (V.run es P) (W.run es Q) := by
  induction es generalizing P Q with
  | nil => exact .some related
  | cons e es ih =>
    simp only [Server.run]
    rcases rel_cases (fire_lockstep coupled e related) with
      ⟨fired, other⟩ | ⟨P', Q', fired, other, later⟩
    · rw [fired, other]
      exact .none
    · rw [fired, other]
      exact ih later

/-- What is seen of the two runs is the same. -/
theorem run_view (coupled : Couples K f V W) (es : List (Event ρ C E)) (s : S) :
    (W.run es ⟨K.state s, []⟩).map Pool.view = (V.run es ⟨s, []⟩).map fun P =>
      (K.state P.shared, P.procs.map fun proc =>
        (proc.request, proc.prog.next?.map K.call, proc.prog.outcome?.map (K.result f))) := by
  have start : Represents K f (⟨s, []⟩ : Pool σ ρ S α) ⟨K.state s, []⟩ := ⟨rfl, .nil⟩
  rcases rel_cases (run_lockstep coupled es start) with ⟨ran, other⟩ | ⟨P, Q, ran, other, related⟩
  · rw [ran, other]
    rfl
  · rw [ran, other]
    exact congrArg some related.view

end Embedding

end Awaiting
