import RestaurantAssistant.Async.Server
import Mathlib.Data.List.Perm.Basic

/-!
# Serializing runs

A run is serializable if the view one takes of its shared state changes only when a request
commits, and then as if a request of the other server had run alone from there
(`Server.run_serializes`): the views before and after are those of a session of what was
committed, in the order it was committed.
-/

namespace Awaiting

variable {σ τ : Signature} {ρ ρ' S T C D E F α β : Type}

/-- What the requests have committed: each a request of the other server, and its outcome. -/
def Pool.committed (status : Proc σ ρ S α → Option (ρ' × Except τ.Exn β)) (P : Pool σ ρ S α) :
    List (ρ' × Except τ.Exn β) :=
  P.procs.filterMap status

variable {V : Server σ ρ S C E α} {W : Server τ ρ' T D F β} {P P' : Pool σ ρ S α}
  {status : Proc σ ρ S α → Option (ρ' × Except τ.Exn β)} {i : Nat} {proc new : Proc σ ρ S α}

/-- What every good event keeps holds at each of them. -/
theorem Server.Along.strengthen {good : Pool σ ρ S α → Event ρ C E → Prop}
    {inv : Pool σ ρ S α → Prop} {es : List (Event ρ C E)}
    (step : ∀ {P e P'}, inv P → good P e → V.fire e P = some P' → inv P')
    (along : V.Along good es P) (start : inv P) : V.Along (fun Q e => good Q e ∧ inv Q) es P := by
  induction es generalizing P with
  | nil => trivial
  | cons e es ih =>
    obtain ⟨here, later⟩ := along
    refine ⟨⟨here, start⟩, fun Q fired => ?_⟩
    exact ih (later Q fired) (step start here fired)

/-- A request that is replaced by one of the same status. -/
theorem Pool.committed_set_same {s : S} (found : P.procs[i]? = some proc)
    (same : status new = status proc) :
    Pool.committed status ⟨s, P.procs.set i new⟩ = P.committed status := by
  obtain ⟨before, after, rows, replaced⟩ := Pool.split found
  unfold Pool.committed
  rw [replaced, rows]
  simp only [List.filterMap_append, List.filterMap_cons, same]

/-- A request that commits. -/
theorem Pool.committed_set_new {s : S} {entry : ρ' × Except τ.Exn β}
    (found : P.procs[i]? = some proc) (open_ : status proc = none)
    (commits : status new = some entry) :
    (Pool.committed status ⟨s, P.procs.set i new⟩).Perm (P.committed status ++ [entry]) := by
  obtain ⟨before, after, rows, replaced⟩ := Pool.split found
  unfold Pool.committed
  rw [replaced, rows]
  simp only [List.filterMap_append, List.filterMap_cons, open_, commits, List.append_assoc]
  exact List.Perm.append_left _ (List.perm_append_singleton _ _).symm

/-- One step of a request leaves the view and the request's status alone, or the request
commits and the view changes as if what it commits ran alone. -/
def Server.CommitsAlone (W : Server τ ρ' T D F β) (ok : T → ρ' → Prop) (view : S → T)
    (status : Proc σ ρ S α → Option (ρ' × Except τ.Exn β)) (s s' : S)
    (proc new : Proc σ ρ S α) : Prop :=
  (view s' = view s ∧ status new = status proc) ∨
    ∃ entry, status proc = none ∧ status new = some entry ∧ ok (view s) entry.1 ∧
      Eval W.interp (W.handle entry.1) (view s) entry.2 (view s')

/-- **Serialization.**  If each step of a run commits alone or not at all, the view goes
through a session of what is committed. -/
theorem Server.run_serializes {es : List (Event ρ C E)} {ok : T → ρ' → Prop} {view : S → T}
    {good : Pool σ ρ S α → Event ρ C E → Prop} (inv : ρ → History σ S → Async σ α → Prop)
    (arrive : ∀ {P r}, good P (.arrive r) → (V.handle r).Always V.interp (inv r) [])
    (fresh : ∀ r, status ⟨r, [], V.handle r⟩ = none)
    (step : ∀ {P : Pool σ ρ S α} {i c proc call k r s'}, P.Always inv V.interp →
      good P (.resume i c) → P.procs[i]? = some proc → proc.prog = .await call k →
      V.interp.answer c call P.shared = some (r, s') →
      W.CommitsAlone ok view status P.shared s' proc (proc.resumed call P.shared (k r)))
    (env : ∀ e s, view (V.env e s) = view s)
    (ran : V.run es P = some P') (along : V.Along good es P) (always : P.Always inv V.interp) :
    ∃ log, W.Session ok (view P.shared) log (view P'.shared) ∧
      (P'.committed status).Perm (P.committed status ++ log) := by
  refine (Server.run_preserves_always inv (fun Q => ∃ log,
    W.Session ok (view P.shared) log (view Q.shared) ∧
      (Q.committed status).Perm (P.committed status ++ log)) arrive ?_ ran along always
    ⟨[], .nil, by rw [List.append_nil]⟩).2
  intro Q e Q' stands held here fired
  obtain ⟨log, session, same⟩ := held
  rcases Server.fire_cases fired with ⟨r, rfl, rfl⟩ |
    ⟨i, c, proc, call, k, r, s', rfl, found, suspended, answered, rfl⟩ | ⟨x, rfl, rfl⟩
  · refine ⟨log, session, ?_⟩
    have arrived : Pool.committed status { Q with procs := Q.procs ++ [⟨r, [], V.handle r⟩] } =
        Q.committed status := by
      simp [Pool.committed, fresh]
    rw [arrived]
    exact same
  · rcases step stands here found suspended answered with
      ⟨unchanged, open_⟩ | ⟨entry, open_, commits, permitted, alone⟩
    · refine ⟨log, ?_, ?_⟩
      · rw [unchanged]
        exact session
      · rw [Pool.committed_set_same found open_]
        exact same
    · refine ⟨log ++ [entry], .request session permitted alone, ?_⟩
      refine (Pool.committed_set_new found open_ commits).trans ?_
      rw [← List.append_assoc]
      exact same.append_right _
  · refine ⟨log, ?_, same⟩
    rw [show view (V.env x Q.shared) = view Q.shared from env x Q.shared]
    exact session

end Awaiting
