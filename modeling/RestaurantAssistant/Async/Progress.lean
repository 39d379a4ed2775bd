import RestaurantAssistant.Async.Moments

/-!
# Progress

Requests share a state and nothing else: none of them waits for another.  What can go wrong is
that a call has no answer, or that a program makes calls forever.

* `p.Can I Q`: answers exist with which `p` comes to its end, and to a value with `Q` if it
  returns.  `p.Lively I n`: this is so for the next `n` calls, wherever `p` awaits one.
* `p.Within n`: however its calls are answered, `p` makes at most `n` of them.

A request whose program is lively can be brought to its end by resuming it alone
(`Server.run_lively`), and one within `n` has made at most `n` calls (`Server.run_within`).
-/

namespace Awaiting

variable {σ : Signature} {ρ S C E α β : Type}

/-- From every state there are answers with which the program ends. -/
def Async.Can (I : Interp σ S C) (Q : α → Prop) (p : Async σ α) : Prop :=
  ∀ s, ∃ out t, Eval I p s out t ∧ ∀ a, out = .ok a → Q a

/-- It stays so for the next `n` calls, wherever the program awaits one. -/
def Async.Lively (I : Interp σ S C) : Nat → Async σ α → Prop
  | 0, .await call k => (Async.await call k).Can I fun _ => True
  | n + 1, .await call k => (Async.await call k).Can I (fun _ => True) ∧
      ∀ c s r s', I.answer c call s = some (r, s') → (k r).Lively I n
  | _, .diverge => False
  | _, _ => True

/-- At most so many calls. -/
def Async.Within : Nat → Async σ α → Prop
  | n + 1, .await _ k => ∀ r, (k r).Within n
  | 0, .await _ _ => False
  | _, _ => True

section Lively

variable {I : Interp σ S C} {Q : α → Prop} {R : β → Prop} {p : Async σ α} {f : α → Async σ β}

theorem Async.Can.pure {a : α} (holds : Q a) : (Async.pure a : Async σ α).Can I Q := by
  intro s
  refine ⟨_, s, .pure, ?_⟩
  intro b same
  cases same
  exact holds

theorem Async.Can.throw {e : σ.Exn} : (Async.throw e : Async σ α).Can I Q := by
  intro s
  refine ⟨_, s, .throw, ?_⟩
  intro b same
  cases same

theorem Async.Can.bind (first : p.Can I Q) (rest : ∀ a, Q a → (f a).Can I R) :
    (p >>= f).Can I R := by
  intro s
  obtain ⟨out, t, ran, holds⟩ := first s
  cases out with
  | ok a =>
    obtain ⟨out', t', ran', holds'⟩ := rest a (holds a rfl) t
    exact ⟨out', t', Eval.bind_iff.mpr (.inl ⟨a, t, ran, ran'⟩), holds'⟩
  | error e =>
    refine ⟨.error e, t, Eval.bind_iff.mpr (.inr ⟨e, ran, rfl⟩), ?_⟩
    intro b same
    cases same

theorem Async.Can.tryCatch {h : σ.Exn → Async σ α} (body : p.Can I Q)
    (handler : ∀ e, (h e).Can I Q) : (p.tryCatch h).Can I Q := by
  intro s
  obtain ⟨out, t, ran, holds⟩ := body s
  cases out with
  | ok a => exact ⟨.ok a, t, Eval.tryCatch_iff.mpr (.inl ⟨a, ran, rfl⟩), holds⟩
  | error e =>
    obtain ⟨out', t', ran', holds'⟩ := handler e t
    exact ⟨out', t', Eval.tryCatch_iff.mpr (.inr ⟨e, t, ran, ran'⟩), holds'⟩

/-- A call that has an answer. -/
theorem Async.Can.call {c : σ.Call} {Q : σ.Reply c → Prop}
    (answers : ∀ s, ∃ x r s', I.answer x c s = some (r, s') ∧ ∀ a, r = .ok a → Q a) :
    (Async.call c).Can I Q := by
  intro s
  obtain ⟨x, r, s', answered, holds⟩ := answers s
  refine ⟨r, s', Eval.await_iff.mpr ⟨x, r, s', answered, ?_⟩, holds⟩
  cases r with
  | ok a => exact .pure
  | error e => exact .throw

variable {n : Nat}

theorem Async.Lively.pure {a : α} : (Async.pure a : Async σ α).Lively I n := by
  cases n <;> trivial

theorem Async.Lively.throw {e : σ.Exn} : (Async.throw e : Async σ α).Lively I n := by
  cases n <;> trivial

theorem Async.Lively.call {c : σ.Call} (answers : ∀ s, ∃ x r s', I.answer x c s = some (r, s')) :
    (Async.call c).Lively I n := by
  have can : (Async.call c).Can I fun _ => True := by
    apply Async.Can.call
    intro s
    obtain ⟨x, r, s', answered⟩ := answers s
    exact ⟨x, r, s', answered, fun _ _ => trivial⟩
  cases n with
  | zero => exact can
  | succ n =>
    refine ⟨can, fun x s r s' _ => ?_⟩
    cases r with
    | ok a => exact .pure
    | error e => exact .throw

theorem Async.Lively.can (lively : p.Lively I n) : p.Can I fun _ => True := by
  cases p with
  | pure a => exact .pure trivial
  | throw e => exact .throw
  | diverge => cases n <;> exact lively.elim
  | await call k =>
    cases n with
    | zero => exact lively
    | succ n => exact lively.1

theorem Async.Lively.fewer (lively : p.Lively I (n + 1)) : p.Lively I n := by
  induction p generalizing n with
  | pure a => exact .pure
  | throw e => exact .throw
  | diverge => exact lively.elim
  | await call k ih =>
    cases n with
    | zero => exact lively.1
    | succ n => exact ⟨lively.1, fun c s r s' answered => ih r (lively.2 c s r s' answered)⟩

theorem Async.Lively.bind (first : p.Lively I n) (rest : ∀ a, (f a).Lively I n) :
    (p >>= f).Lively I n := by
  induction p generalizing n with
  | pure a => exact rest a
  | throw e => exact .throw
  | diverge => cases n <;> exact first.elim
  | await call k ih =>
    cases n with
    | zero => exact first.bind fun a _ => (rest a).can
    | succ n =>
      exact ⟨first.1.bind fun a _ => (rest a).can, fun c s r s' answered =>
        ih r (first.2 c s r s' answered) fun a => (rest a).fewer⟩

theorem Async.Lively.tryCatch {h : σ.Exn → Async σ α} (body : p.Lively I n)
    (handler : ∀ e, (h e).Lively I n) : (p.tryCatch h).Lively I n := by
  induction p generalizing n with
  | pure a => exact .pure
  | throw e => exact handler e
  | diverge => cases n <;> exact body.elim
  | await call k ih =>
    cases n with
    | zero => exact body.tryCatch fun e => (handler e).can
    | succ n =>
      exact ⟨body.1.tryCatch fun e => (handler e).can, fun c s r s' answered =>
        ih r (body.2 c s r s' answered) fun e => (handler e).fewer⟩

end Lively

section Within

variable {m n : Nat} {p : Async σ α} {f : α → Async σ β}

theorem Async.Within.pure {a : α} : (Async.pure a : Async σ α).Within n := by
  cases n <;> trivial

theorem Async.Within.throw {e : σ.Exn} : (Async.throw e : Async σ α).Within n := by
  cases n <;> trivial

theorem Async.Within.diverge : (Async.diverge : Async σ α).Within n := by
  cases n <;> trivial

theorem Async.Within.mono (within : p.Within m) (more : m ≤ n) : p.Within n := by
  induction p generalizing m n with
  | pure a => exact .pure
  | throw e => exact .throw
  | diverge => exact .diverge
  | await call k ih =>
    cases m with
    | zero => exact within.elim
    | succ m =>
      cases n with
      | zero => omega
      | succ n => exact fun r => ih r (within r) (by omega)

theorem Async.Within.bind (first : p.Within m) (rest : ∀ a, (f a).Within n) :
    (p >>= f).Within (m + n) := by
  induction p generalizing m with
  | pure a => exact (rest a).mono (by omega)
  | throw e => exact .throw
  | diverge => exact .diverge
  | await call k ih =>
    cases m with
    | zero => exact first.elim
    | succ m =>
      rw [Nat.succ_add]
      exact fun r => ih r (first r)

theorem Async.Within.tryCatch {h : σ.Exn → Async σ α} (body : p.Within m)
    (handler : ∀ e, (h e).Within 0) : (p.tryCatch h).Within m := by
  induction p generalizing m with
  | pure a => exact body
  | throw e => exact (handler e).mono (by omega)
  | diverge => exact body
  | await call k ih =>
    cases m with
    | zero => exact body.elim
    | succ m => exact fun r => ih r (body r)

theorem Async.Within.call {c : σ.Call} : (Async.call c).Within 1 := by
  intro r
  cases r <;> trivial

end Within

section Runs

variable {V : Server σ ρ S C E α} {P : Pool σ ρ S α} {es : List (Event ρ C E)} {s t : S}
  {i : Nat} {r : ρ} {h : History σ S} {p : Async σ α} {procs : List (Proc σ ρ S α)}

theorem set_of_getElem? {proc : Proc σ ρ S α} (found : procs[i]? = some proc) :
    procs.set i proc = procs := by
  obtain ⟨inRange, rfl⟩ := List.getElem?_eq_some_iff.mp found
  exact List.set_getElem_self inRange

/-- **A request on its own.**  What its program can do alone, the server does by resuming the
request and no other. -/
theorem Server.run_alone {out : Except σ.Exn α} (ran : Eval V.interp p s out t)
    (found : procs[i]? = some ⟨r, h, p⟩) :
    ∃ (cs : List C) (h' : History σ S), h'.length = h.length + cs.length ∧
      V.run (cs.map (.resume i)) ⟨s, procs⟩ = some ⟨t, procs.set i ⟨r, h', .ofExcept out⟩⟩ := by
  induction ran generalizing procs h with
  | pure =>
    refine ⟨[], h, rfl, ?_⟩
    simp only [Async.ofExcept, set_of_getElem? found]
    rfl
  | throw =>
    refine ⟨[], h, rfl, ?_⟩
    simp only [Async.ofExcept, set_of_getElem? found]
    rfl
  | @await call k s s' t reply out c answered rest ih =>
    have inRange := (List.getElem?_eq_some_iff.mp found).1
    have resumed : (procs.set i ⟨r, (call, s) :: h, k reply⟩)[i]? =
        some ⟨r, (call, s) :: h, k reply⟩ := List.getElem?_set_self inRange
    obtain ⟨cs, h', calls, later⟩ := ih resumed
    rw [List.set_set] at later
    refine ⟨c :: cs, h', ?_, ?_⟩
    · rw [calls, List.length_cons, List.length_cons]
      omega
    · simp only [List.map_cons, Server.run, Server.fire, found, answered, Proc.resumed]
      exact later

/-- **The rule of progress.**  Before it has made so many calls, every request can be brought
to its end by resuming it and no other. -/
theorem Server.run_lively {n : Nat} {good : ρ → Prop}
    (lively : ∀ r, good r → (V.handle r).Lively V.interp n)
    (ran : V.run es ⟨s, []⟩ = some P) (arrive : ∀ r, .arrive r ∈ es → good r)
    {proc : Proc σ ρ S α} (found : P.procs[i]? = some proc) (early : proc.history.length ≤ n) :
    ∃ (cs : List C) (h' : History σ S) (out : Except σ.Exn α) (t : S),
      h'.length = proc.history.length + cs.length ∧ V.run (cs.map (.resume i)) P =
        some ⟨t, P.procs.set i ⟨proc.request, h', .ofExcept out⟩⟩ := by
  have kept : ∀ proc ∈ P.procs, ∀ m, proc.history.length + m = n →
      proc.prog.Lively V.interp m := by
    refine Server.run_preserves (fun Q => ∀ proc ∈ Q.procs, ∀ m, proc.history.length + m = n →
      proc.prog.Lively V.interp m) ?_ ran
      (.of_forall fun e member _ r same => arrive r (same ▸ member) :
        V.Along (fun _ e => ∀ r, e = .arrive r → good r) es _) ?_
    · intro Q e Q' held here fired proc member m total
      rcases Server.fire_cases fired with ⟨r, rfl, rfl⟩ |
        ⟨i, c, old, call, k, reply, s', rfl, found, suspended, answered, rfl⟩ | ⟨x, rfl, rfl⟩
      · rcases List.mem_append.mp member with member | member
        · exact held proc member m total
        · cases List.mem_singleton.mp member
          have whole : m = n := by simpa using total
          rw [whole]
          exact lively r (here r rfl)
      · rcases List.mem_or_eq_of_mem_set member with member | rfl
        · exact held proc member m total
        · have before : old.history.length + (m + 1) = n := by
            simp only [Proc.resumed, List.length_cons] at total
            omega
          have stood := held old (List.mem_of_getElem? found) (m + 1) before
          rw [suspended] at stood
          exact stood.2 c Q.shared reply s' answered
      · exact held proc member m total
    · intro proc member
      cases member
  have can := (kept proc (List.mem_of_getElem? found) (n - proc.history.length) (by omega)).can
  obtain ⟨out, t, ends, -⟩ := can P.shared
  obtain ⟨cs, h', calls, ran'⟩ := Server.run_alone ends found
  exact ⟨cs, h', out, t, calls, ran'⟩

/-- A request has made no more calls than there were events. -/
theorem Server.run_calls (ran : V.run es ⟨s, []⟩ = some P) {proc : Proc σ ρ S α}
    (member : proc ∈ P.procs) : proc.history.length ≤ es.length := by
  refine Server.run_moments (fun n Q => ∀ proc ∈ Q.procs, proc.history.length ≤ n)
    ?_ ran ?_ proc member
  · intro n Q e Q' _ held _ fired proc member
    rcases Server.fire_cases fired with ⟨r, rfl, rfl⟩ |
      ⟨i, c, old, call, k, reply, s', rfl, found, suspended, answered, rfl⟩ | ⟨x, rfl, rfl⟩
    · rcases List.mem_append.mp member with member | member
      · exact Nat.le_succ_of_le (held proc member)
      · cases List.mem_singleton.mp member
        exact Nat.zero_le _
    · rcases List.mem_or_eq_of_mem_set member with member | rfl
      · exact Nat.le_succ_of_le (held proc member)
      · exact Nat.succ_le_succ (held old (List.mem_of_getElem? found))
    · exact Nat.le_succ_of_le (held proc member)
  · intro proc member
    cases member

/-- **The rule of bounds.** -/
theorem Server.run_within (bound : ρ → Nat) (within : ∀ r, (V.handle r).Within (bound r))
    (ran : V.run es ⟨s, []⟩ = some P) {proc : Proc σ ρ S α} (member : proc ∈ P.procs) :
    proc.history.length ≤ bound proc.request := by
  have kept : ∀ proc ∈ P.procs, ∃ n, proc.prog.Within n ∧
      proc.history.length + n ≤ bound proc.request := by
    refine Server.run_preserves (fun Q => ∀ proc ∈ Q.procs, ∃ n, proc.prog.Within n ∧
      proc.history.length + n ≤ bound proc.request) ?_ ran
      (.of_forall fun _ _ _ => trivial : V.Along (fun _ _ => True) es _) ?_
    · intro Q e Q' held _ fired proc member
      rcases Server.fire_cases fired with ⟨r, rfl, rfl⟩ |
        ⟨i, c, old, call, k, reply, s', rfl, found, suspended, answered, rfl⟩ | ⟨x, rfl, rfl⟩
      · rcases List.mem_append.mp member with member | member
        · exact held proc member
        · cases List.mem_singleton.mp member
          exact ⟨bound r, within r, by simp⟩
      · rcases List.mem_or_eq_of_mem_set member with member | rfl
        · exact held proc member
        · obtain ⟨n, calls, few⟩ := held old (List.mem_of_getElem? found)
          rw [suspended] at calls
          cases n with
          | zero => exact calls.elim
          | succ n =>
            refine ⟨n, calls reply, ?_⟩
            simp only [Proc.resumed, List.length_cons]
            omega
      · exact held proc member
    · intro proc member
      cases member
  obtain ⟨n, -, few⟩ := kept proc member
  omega

end Runs

end Awaiting
