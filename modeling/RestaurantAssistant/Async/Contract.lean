import RestaurantAssistant.Async.Embedding

/-!
# Contracts

`p.Ends I Q h`: with the history `h` behind it and however its calls are answered, the
program `p` ends as `Q` says, if it ends; `Q` may look at the history it has made.  The rules
follow the program: `Ends.bind`, `Ends.tryCatch`, and `Ends.failing` where calls may be
rejected.

What the programs of a server end with by themselves they end with in every run
(`Server.run_ends`).
-/

namespace Awaiting

variable {σ : Signature} {ρ S C E α β : Type}

def Async.Ends (I : Interp σ S C) (Q : History σ S → Except σ.Exn α → Prop) :
    Async σ α → History σ S → Prop
  | .pure a, h => Q h (.ok a)
  | .throw e, h => Q h (.error e)
  | .diverge, _ => True
  | .await call k, h => ∀ c s r s', I.answer c call s = some (r, s') →
      (k r).Ends I Q ((call, s) :: h)

namespace Async.Ends

variable {I : Interp σ S C} {p : Async σ α} {h : History σ S}
  {Q R : History σ S → Except σ.Exn α → Prop}

theorem mono (ends : p.Ends I R h) (weaker : ∀ h' out, R h' out → Q h' out) : p.Ends I Q h := by
  induction p generalizing h with
  | pure a => exact weaker h _ ends
  | throw e => exact weaker h _ ends
  | diverge => trivial
  | await call k ih => exact fun c s r s' answered => ih r (ends c s r s' answered)

theorem ofExcept {out : Except σ.Exn α} (holds : Q h out) : (Async.ofExcept out).Ends I Q h := by
  cases out with
  | ok a => exact holds
  | error e => exact holds

theorem bind {f : α → Async σ β} {Q : History σ S → Except σ.Exn β → Prop} (first : p.Ends I R h)
    (returned : ∀ h' a, R h' (.ok a) → (f a).Ends I Q h')
    (thrown : ∀ h' e, R h' (.error e) → Q h' (.error e)) : (p >>= f).Ends I Q h := by
  induction p generalizing h with
  | pure a => exact returned h a first
  | throw e => exact thrown h e first
  | diverge => trivial
  | await call k ih => exact fun c s r s' answered => ih r (first c s r s' answered)

theorem tryCatch {f : σ.Exn → Async σ α} (body : p.Ends I R h)
    (returned : ∀ h' a, R h' (.ok a) → Q h' (.ok a))
    (thrown : ∀ h' e, R h' (.error e) → (f e).Ends I Q h') : (p.tryCatch f).Ends I Q h := by
  induction p generalizing h with
  | pure a => exact returned h a body
  | throw e => exact thrown h e body
  | diverge => trivial
  | await call k ih => exact fun c s r s' answered => ih r (body c s r s' answered)

theorem map {f : α → β} {Q : History σ S → Except σ.Exn β → Prop}
    (ends : p.Ends I (fun h' out => Q h' (out.map f)) h) : (f <$> p).Ends I Q h := by
  rw [Async.map_eq]
  exact ends.bind (fun _ _ holds => holds) fun _ _ holds => holds

/-- A call that may fail is answered, or rejected. -/
theorem failing {mayFail : σ.Call → Bool} {error : σ.Exn} {call : σ.Call}
    {k : Except σ.Exn (σ.Reply call) → Async σ α}
    (answers : ∀ c s r s', I.answer c call s = some (r, s') →
      (k r).Ends (I.failing mayFail error) Q ((call, s) :: h))
    (rejects : ∀ s, mayFail call = true →
      (k (.error error)).Ends (I.failing mayFail error) Q ((call, s) :: h)) :
    (Async.await call k).Ends (I.failing mayFail error) Q h := by
  intro c s r s' answered
  cases c with
  | some c => exact answers c s r s' answered
  | none =>
    simp only [Interp.failing] at answered
    split at answered
    · rename_i fails
      cases answered
      exact rejects s fails
    · cases answered

/-- What holds where calls may fail holds where none does. -/
theorem reliable {mayFail : σ.Call → Bool} {error : σ.Exn}
    (ends : p.Ends (I.failing mayFail error) Q h) : p.Ends I Q h := by
  induction p generalizing h with
  | pure a => exact ends
  | throw e => exact ends
  | diverge => trivial
  | await call k ih => exact fun c s r s' answered => ih r (ends (some c) s r s' answered)

/-- A contract holds from now on. -/
theorem always (ends : p.Ends I Q h) : p.Always I (fun h' q => q.Ends I Q h') h := by
  induction p generalizing h with
  | pure a => exact ends
  | throw e => exact ends
  | diverge => exact ends
  | await call k ih => exact ⟨ends, fun c s r s' answered => ih r (ends c s r s' answered)⟩

theorem of_outcome {out : Except σ.Exn α} (ends : p.Ends I Q h) (ended : p.outcome? = some out) :
    Q h out := by
  cases p with
  | pure a =>
    cases ended
    exact ends
  | throw e =>
    cases ended
    exact ends
  | diverge => cases ended
  | await call k => cases ended

end Async.Ends

/-- **The rule of contracts.** -/
theorem Server.run_ends {V : Server σ ρ S C E α} {s : S} {es : List (Event ρ C E)}
    {P : Pool σ ρ S α} {proc : Proc σ ρ S α} {out : Except σ.Exn α}
    (Q : ρ → History σ S → Except σ.Exn α → Prop)
    (ends : ∀ r, (V.handle r).Ends V.interp (Q r) []) (ran : V.run es ⟨s, []⟩ = some P)
    (member : proc ∈ P.procs) (ended : proc.prog.outcome? = some out) :
    Q proc.request proc.history out := by
  have along : V.Along (fun _ _ => True) es ⟨s, []⟩ := .of_forall fun _ _ _ => trivial
  have always : P.Always (fun r h p => p.Ends V.interp (Q r) h) V.interp :=
    (Server.run_preserves_always _ (fun _ => True) (fun _ => (ends _).always)
      (fun _ _ _ _ => trivial) ran along (Pool.always_nil _) trivial).1
  exact (always proc member).here.of_outcome ended

end Awaiting
