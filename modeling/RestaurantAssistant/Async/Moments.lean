import RestaurantAssistant.Async.Server

/-!
# Moments of a run

The moment `n` of a run is after its first `n` events.  An invariant may speak of the
moment it holds at (`Server.run_moments`); in particular the calls a request has made were
made one after the other, each at a moment of the run (`Server.fire_dated`).  Where only the
way from then to now matters, `Pool.Since` relates each request's past to the present.
-/

namespace Awaiting

variable {σ : Signature} {ρ S C E α : Type} {V : Server σ ρ S C E α} {P P' : Pool σ ρ S α}
  {es : List (Event ρ C E)}

theorem Server.run_append {es' : List (Event ρ C E)} :
    V.run (es ++ es') P = (V.run es P).bind (V.run es') := by
  induction es generalizing P with
  | nil => rfl
  | cons e es ih =>
    simp only [List.cons_append, Server.run]
    cases V.fire e P with
    | none => rfl
    | some Q => exact ih

/-- One event more. -/
theorem Server.run_concat {e : Event ρ C E} :
    V.run (es ++ [e]) P = (V.run es P).bind (V.fire e) := by
  rw [Server.run_append]
  congr 1
  funext Q
  simp only [Server.run]
  cases V.fire e Q <;> rfl

/-- **The rule of moments.**  What holds at the start and goes from every moment to the next
holds at the end. -/
theorem Server.run_moments (inv : Nat → Pool σ ρ S α → Prop)
    (step : ∀ {n Q e Q'}, V.run (es.take n) P = some Q → inv n Q → es[n]? = some e →
      V.fire e Q = some Q' → inv (n + 1) Q')
    (ran : V.run es P = some P') (start : inv 0 P) : inv es.length P' := by
  have upTo : ∀ n ≤ es.length, ∃ Q, V.run (es.take n) P = some Q ∧ inv n Q := by
    intro n
    induction n with
    | zero =>
      intro _
      exact ⟨P, rfl, start⟩
    | succ n ih =>
      intro within
      obtain ⟨Q, before, holds⟩ := ih (by omega)
      have event : es[n]? = some es[n] := List.getElem?_eq_getElem (by omega)
      have next : es.take (n + 1) = es.take n ++ [es[n]] := by rw [List.take_append_getElem]
      -- the run goes on to its end, so this event can happen
      have whole := ran
      rw [← List.take_append_drop (n + 1) es, Server.run_append, next, Server.run_concat, before,
        Option.bind_some] at whole
      cases fired : V.fire es[n] Q with
      | none =>
        rw [fired] at whole
        cases whole
      | some Q' =>
        refine ⟨Q', ?_, step before holds event fired⟩
        rw [next, Server.run_concat, before, Option.bind_some, fired]
  obtain ⟨Q, reached, holds⟩ := upTo es.length (Nat.le_refl _)
  rw [List.take_length, ran] at reached
  cases reached
  exact holds

/-- The shared state was `s` at the moment `n`. -/
def Server.SharedAt (V : Server σ ρ S C E α) (es : List (Event ρ C E)) (P : Pool σ ρ S α) (n : Nat)
    (s : S) : Prop :=
  ∃ Q, V.run (es.take n) P = some Q ∧ Q.shared = s

/-- The steps of the history were taken at moments before `n`, a later step at a later one. -/
def Server.Dated (V : Server σ ρ S C E α) (es : List (Event ρ C E)) (P : Pool σ ρ S α) (n : Nat)
    (h : History σ S) : Prop :=
  ∃ dates : List (Nat × (σ.Call × S)), dates.map Prod.snd = h ∧
    (∀ date ∈ dates, V.SharedAt es P date.1 date.2.2) ∧
    (n :: dates.map Prod.fst).Pairwise (· > ·)

section Dates

variable {n : Nat} {h h' : History σ S}

theorem Server.Dated.nil : V.Dated es P n [] :=
  ⟨[], rfl, fun _ member => (List.not_mem_nil member).elim, List.pairwise_singleton _ _⟩

theorem Server.Dated.later (dated : V.Dated es P n h) : V.Dated es P (n + 1) h := by
  obtain ⟨dates, same, at_, order⟩ := dated
  refine ⟨dates, same, at_, ?_⟩
  rw [List.pairwise_cons] at order ⊢
  refine ⟨fun m member => ?_, order.2⟩
  have := order.1 m member
  omega

theorem Server.Dated.cons {call : σ.Call} {s : S} (dated : V.Dated es P n h)
    (now : V.SharedAt es P n s) : V.Dated es P (n + 1) ((call, s) :: h) := by
  obtain ⟨dates, same, at_, order⟩ := dated
  refine ⟨(n, call, s) :: dates, by rw [List.map_cons, same], ?_, ?_⟩
  · intro date member
    rcases List.mem_cons.mp member with rfl | member
    · exact now
    · exact at_ date member
  · rw [List.map_cons, List.pairwise_cons]
    refine ⟨fun m member => ?_, order⟩
    rcases List.mem_cons.mp member with rfl | member
    · exact Nat.lt_succ_self m
    · exact Nat.lt_succ_of_lt ((List.pairwise_cons.mp order).1 m member)

theorem Server.Dated.sublist (dated : V.Dated es P n h) (part : h'.Sublist h) :
    V.Dated es P n h' := by
  obtain ⟨dates, rfl, at_, order⟩ := dated
  obtain ⟨dates', within, rfl⟩ := List.sublist_map_iff.mp part
  refine ⟨dates', rfl, fun date member => at_ date (within.subset member), ?_⟩
  exact order.sublist ((within.map Prod.fst).cons_cons n)

/-- A step of the history was taken at some moment. -/
theorem Server.Dated.moment {call : σ.Call} {s : S} (dated : V.Dated es P n h)
    (member : (call, s) ∈ h) : ∃ m < n, V.SharedAt es P m s := by
  obtain ⟨dates, rfl, at_, order⟩ := dated
  obtain ⟨date, dated, same⟩ := List.mem_map.mp member
  refine ⟨date.1, (List.pairwise_cons.mp order).1 _ (List.mem_map_of_mem dated), ?_⟩
  have there := at_ date dated
  rwa [same] at there

/-- Of two steps the later one was taken at the later moment. -/
theorem Server.Dated.moments {call call' : σ.Call} {s s' : S} (dated : V.Dated es P n h)
    (both : [(call', s'), (call, s)].Sublist h) :
    ∃ m m', m < m' ∧ m' < n ∧ V.SharedAt es P m s ∧ V.SharedAt es P m' s' := by
  obtain ⟨dates, same, at_, order⟩ := dated.sublist both
  rcases dates with _ | ⟨date', _ | ⟨date, _ | ⟨more, rest⟩⟩⟩
  · simp at same
  · simp at same
  · simp only [List.map_cons, List.map_nil, List.cons.injEq, and_true] at same
    simp only [List.map_cons, List.map_nil, List.pairwise_cons, List.mem_cons, List.not_mem_nil,
      or_false, forall_eq_or_imp, forall_eq] at order
    have there := at_ date (by simp)
    have there' := at_ date' (by simp)
    rw [same.1] at there'
    rw [same.2] at there
    exact ⟨date.1, date'.1, order.2.1, order.1.1, there, there'⟩
  · simp at same

end Dates

/-- The calls of every request were made at moments of the run, in their order. -/
def Pool.Dated (Q : Pool σ ρ S α) (V : Server σ ρ S C E α) (es : List (Event ρ C E))
    (P : Pool σ ρ S α) (n : Nat) : Prop :=
  ∀ proc ∈ Q.procs, V.Dated es P n proc.history

theorem Server.fire_dated {n : Nat} {e : Event ρ C E} {Q Q' : Pool σ ρ S α}
    (reached : V.run (es.take n) P = some Q) (dated : Q.Dated V es P n)
    (fired : V.fire e Q = some Q') : Q'.Dated V es P (n + 1) := by
  intro proc member
  rcases Server.fire_cases fired with ⟨r, rfl, rfl⟩ |
    ⟨i, c, old, call, k, r, s', rfl, found, suspended, answered, rfl⟩ | ⟨x, rfl, rfl⟩
  · rcases List.mem_append.mp member with member | member
    · exact (dated proc member).later
    · cases List.mem_singleton.mp member
      exact .nil
  · rcases List.mem_or_eq_of_mem_set member with member | rfl
    · exact (dated proc member).later
    · exact (dated old (List.mem_of_getElem? found)).cons ⟨Q, reached, rfl⟩
  · exact (dated proc member).later

/-- A finished request stays as it is. -/
theorem Server.fire_finished {e : Event ρ C E} {proc : Proc σ ρ S α}
    (fired : V.fire e P = some P') (member : proc ∈ P.procs) (done : proc.prog.finished = true) :
    proc ∈ P'.procs := by
  rcases Server.fire_cases fired with ⟨r, rfl, rfl⟩ |
    ⟨i, c, old, call, k, r, s', rfl, found, suspended, answered, rfl⟩ | ⟨x, rfl, rfl⟩
  · exact List.mem_append_left _ member
  · obtain ⟨before, after, rows, replaced⟩ := Pool.split found
    rw [rows] at member
    change proc ∈ P.procs.set i _
    rw [replaced]
    rcases List.mem_append.mp member with member | member
    · exact List.mem_append_left _ member
    · rcases List.mem_cons.mp member with rfl | member
      · rw [suspended] at done
        cases done
      · exact List.mem_append_right _ (List.mem_cons_of_mem _ member)
  · exact member

/-- Every state a request has made a call in is related to the present one. -/
def Pool.Since (R : S → S → Prop) (P : Pool σ ρ S α) : Prop :=
  ∀ proc ∈ P.procs, ∀ step ∈ proc.history, R step.2 P.shared

theorem Pool.since_nil {R : S → S → Prop} {s : S} : Pool.Since R (⟨s, []⟩ : Pool σ ρ S α) := by
  intro proc member
  cases member

theorem Server.fire_since {R : S → S → Prop} {e : Event ρ C E} (fired : V.fire e P = some P')
    (here : R P.shared P'.shared) (on : ∀ s, R s P.shared → R s P'.shared) (since : P.Since R) :
    P'.Since R := by
  intro proc member step past
  rcases Server.fire_cases fired with ⟨r, rfl, rfl⟩ |
    ⟨i, c, old, call, k, r, s', rfl, found, suspended, answered, rfl⟩ | ⟨x, rfl, rfl⟩
  · rcases List.mem_append.mp member with member | member
    · exact on step.2 (since proc member step past)
    · cases List.mem_singleton.mp member
      cases past
  · rcases List.mem_or_eq_of_mem_set member with member | rfl
    · exact on step.2 (since proc member step past)
    · rcases List.mem_cons.mp past with rfl | past
      · exact here
      · exact on step.2 (since old (List.mem_of_getElem? found) step past)
  · exact on step.2 (since proc member step past)

end Awaiting
