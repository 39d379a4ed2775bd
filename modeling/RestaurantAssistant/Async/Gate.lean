import RestaurantAssistant.Async.Moments

/-!
# Servers behind a gate

`V.behind gate` is the server `V` with a gate in front of it: `gate` turns what comes in
into a request of `V`, or refuses it with an exception and nothing else happens.

Whatever the order of events, what the gate has admitted runs as if it were all there is
(`Server.run_admitted`), and what it has refused ends where it began.
-/

namespace Awaiting

variable {σ : Signature} {ρ ρ' S C E α : Type} (gate : ρ' → Except σ.Exn ρ)

def Server.behind (V : Server σ ρ S C E α) : Server σ ρ' S C E α where
  interp := V.interp
  handle r := Async.ofExcept (gate r) >>= V.handle
  env := V.env

/-- The request behind the gate, if it was admitted. -/
def Proc.admitted (proc : Proc σ ρ' S α) : Option (Proc σ ρ S α) :=
  match gate proc.request with
  | .ok r => some ⟨r, proc.history, proc.prog⟩
  | .error _ => none

/-- The pool behind the gate. -/
def Pool.admitted (P : Pool σ ρ' S α) : Pool σ ρ S α :=
  ⟨P.shared, P.procs.filterMap (Proc.admitted gate)⟩

/-- What was refused has made no call and has ended with the exception. -/
def Pool.Refuses (P : Pool σ ρ' S α) : Prop :=
  ∀ proc ∈ P.procs, ∀ e, gate proc.request = .error e → proc.history = [] ∧ proc.prog = .throw e

/-- The request that arrives. -/
def Event.request? : Event ρ C E → Option ρ
  | .arrive r => some r
  | _ => none

/-- The requests that arrive behind the gate. -/
def arrivals (es : List (Event ρ' C E)) : List ρ :=
  es.filterMap fun e => e.request?.bind fun r => (gate r).toOption

variable {gate} {V : Server σ ρ S C E α} {P P' : Pool σ ρ' S α} {proc : Proc σ ρ' S α} {r : ρ}

theorem Proc.admitted_of_ok (ok : gate proc.request = .ok r) :
    proc.admitted gate = some ⟨r, proc.history, proc.prog⟩ := by
  simp only [Proc.admitted, ok]

theorem Server.handle_of_ok {r' : ρ'} (ok : gate r' = .ok r) :
    (V.behind gate).handle r' = V.handle r := by
  simp only [Server.behind, ok]
  rfl

theorem Server.handle_of_error {r' : ρ'} {e : σ.Exn} (error : gate r' = .error e) :
    (V.behind gate).handle r' = .throw e := by
  simp only [Server.behind, error]
  rfl

/-- Resuming a request in front of the gate resumes the one behind it. -/
theorem Server.resume_admitted {i : Nat} {c : C} {call : σ.Call}
    {k : Except σ.Exn (σ.Reply call) → Async σ α} {reply : Except σ.Exn (σ.Reply call)} {s' : S}
    (found : P.procs[i]? = some proc) (suspended : proc.prog = .await call k)
    (ok : gate proc.request = .ok r)
    (answered : V.interp.answer c call P.shared = some (reply, s')) :
    ∃ j, V.fire (.resume j c) (P.admitted gate) = some (Pool.admitted gate
      ⟨s', P.procs.set i (proc.resumed call P.shared (k reply))⟩) := by
  obtain ⟨before, after, rows, replaced⟩ := Pool.split found
  refine ⟨(before.filterMap (Proc.admitted gate)).length, ?_⟩
  have old : proc.admitted gate = some ⟨r, proc.history, proc.prog⟩ := Proc.admitted_of_ok ok
  have new : (proc.resumed call P.shared (k reply)).admitted gate =
      some ⟨r, (call, P.shared) :: proc.history, k reply⟩ := Proc.admitted_of_ok ok
  have split : (P.admitted gate).procs = before.filterMap (Proc.admitted gate) ++
      ⟨r, proc.history, proc.prog⟩ :: after.filterMap (Proc.admitted gate) := by
    simp only [Pool.admitted, rows, List.filterMap_append, List.filterMap_cons_some old]
  have there : (P.admitted gate).procs[(before.filterMap (Proc.admitted gate)).length]? =
      some ⟨r, proc.history, .await call k⟩ := by
    rw [split, suspended]
    simp
  have here : V.interp.answer c call (P.admitted gate).shared = some (reply, s') := answered
  have result : Pool.admitted gate ⟨s', P.procs.set i (proc.resumed call P.shared (k reply))⟩ =
      ⟨s', before.filterMap (Proc.admitted gate) ++
        ⟨r, (call, P.shared) :: proc.history, k reply⟩ ::
        after.filterMap (Proc.admitted gate)⟩ := by
    simp only [Pool.admitted, replaced, List.filterMap_append, List.filterMap_cons_some new]
  rw [result]
  simp only [Server.fire, there, here]
  rw [split]
  simp [Proc.resumed, Pool.admitted]

/-- **The step.**  An event in front of the gate is one behind it, or none, and what was
refused stays as it is. -/
theorem Server.fire_admitted {e : Event ρ' C E} (refuses : P.Refuses gate)
    (fired : (V.behind gate).fire e P = some P') :
    P'.Refuses gate ∧ ∃ es', V.run es' (P.admitted gate) = some (P'.admitted gate) ∧
      es'.filterMap Event.request? = arrivals gate [e] := by
  rcases Server.fire_cases fired with ⟨r', rfl, rfl⟩ |
    ⟨i, c, proc, call, k, reply, s', rfl, found, suspended, answered, rfl⟩ | ⟨x, rfl, rfl⟩
  · constructor
    · intro proc member e error
      rcases List.mem_append.mp member with member | member
      · exact refuses proc member e error
      · cases List.mem_singleton.mp member
        exact ⟨rfl, Server.handle_of_error error⟩
    · cases judged : gate r' with
      | error e =>
        refine ⟨[], ?_, ?_⟩
        · simp [Server.run, Pool.admitted, Proc.admitted, judged]
        · simp [arrivals, Event.request?, judged, Except.toOption]
      | ok r =>
        refine ⟨[.arrive r], ?_, ?_⟩
        · simp [Server.run, Server.fire, Pool.admitted, Proc.admitted, judged,
            Server.handle_of_ok judged]
        · simp [arrivals, Event.request?, judged, Except.toOption]
  · have member := List.mem_of_getElem? found
    -- a request that awaits a call was not refused
    cases judged : gate proc.request with
    | error e =>
      have ended := (refuses proc member e judged).2
      rw [suspended] at ended
      cases ended
    | ok r =>
      constructor
      · intro proc' member' e error
        rcases List.mem_or_eq_of_mem_set member' with member' | rfl
        · exact refuses proc' member' e error
        · have same : gate proc.request = .error e := error
          rw [judged] at same
          cases same
      · obtain ⟨j, resumed⟩ := Server.resume_admitted found suspended judged answered
        refine ⟨[.resume j c], ?_, rfl⟩
        simp only [Server.run, resumed]
  · exact ⟨refuses, [.env x], rfl, rfl⟩

/-- **The gate.**  What is behind the gate runs by itself. -/
theorem Server.run_admitted {es : List (Event ρ' C E)} (refuses : P.Refuses gate)
    (ran : (V.behind gate).run es P = some P') :
    P'.Refuses gate ∧ ∃ es', V.run es' (P.admitted gate) = some (P'.admitted gate) ∧
      es'.filterMap Event.request? = arrivals gate es := by
  induction es generalizing P with
  | nil =>
    cases ran
    exact ⟨refuses, [], rfl, rfl⟩
  | cons e es ih =>
    simp only [Server.run] at ran
    split at ran
    · rename_i Q fired
      obtain ⟨refuses', first, ranFirst, arrivedFirst⟩ := Server.fire_admitted refuses fired
      obtain ⟨refuses'', later, ranLater, arrivedLater⟩ := ih refuses' ran
      refine ⟨refuses'', first ++ later, ?_, ?_⟩
      · rw [Server.run_append, ranFirst]
        exact ranLater
      · rw [List.filterMap_append, arrivedFirst, arrivedLater]
        unfold arrivals
        rw [← List.filterMap_append, List.singleton_append]
    · cases ran

theorem Pool.refuses_nil {s : S} : Pool.Refuses gate (⟨s, []⟩ : Pool σ ρ' S α) := by
  intro proc member
  cases member

end Awaiting
