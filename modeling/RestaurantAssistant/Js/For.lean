import Mathlib.Data.List.Basic
import Mathlib.Logic.Function.Iterate

/-!
# Searching `for` loops

A loop `for (let i = start; runs(i); i = step(i))` that asks every counter value
whether it is `free`: `forCollect` collects those that are, `forFirst` leaves at the
first one.  Both are given the turns they may take, and are `none` if these are not
enough.

The counter of turn `k` is `step^[k] start`, and a loop that ends has taken the turns
of `StopsAfter`.  What it returns is read off them.  Two loops with related counters go
`Together`.
-/

namespace Js

variable {α : Type}

/-- The free counter values of the loop, in its order. -/
def forCollect (runs free : α → Bool) (step : α → α) : Nat → α → Option (List α)
  | 0, i => if runs i then none else some []
  | fuel + 1, i =>
    if runs i then
      (forCollect runs free step fuel (step i)).map fun rest => if free i then i :: rest else rest
    else some []

/-- The first free counter value, if there is one. -/
def forFirst (runs free : α → Bool) (step : α → α) : Nat → α → Option (Option α)
  | 0, i => if runs i then none else some none
  | fuel + 1, i =>
    if runs i then
      if free i then some (some i) else forFirst runs free step fuel (step i)
    else some none

/-- The loop stops after `k` turns. -/
structure StopsAfter (runs : α → Bool) (step : α → α) (i : α) (k : Nat) : Prop where
  turns : ∀ j < k, runs (step^[j] i) = true
  stopped : runs (step^[k] i) = false

variable {runs free : α → Bool} {step : α → α} {fuel : Nat} {i : α}

namespace StopsAfter

theorem zero (stopped : runs i = false) : StopsAfter runs step i 0 :=
  ⟨fun j before => absurd before j.not_lt_zero, stopped⟩

theorem succ {k : Nat} (here : runs i = true) (rest : StopsAfter runs step (step i) k) :
    StopsAfter runs step i (k + 1) := by
  refine ⟨?_, rest.stopped⟩
  intro j before
  cases j with
  | zero => exact here
  | succ j => exact rest.turns j (Nat.lt_of_succ_lt_succ before)

theorem le_of_stopped {k n : Nat} (stops : StopsAfter runs step i k)
    (stopped : runs (step^[n] i) = false) : k ≤ n := by
  by_contra earlier
  rw [stops.turns n (by omega)] at stopped
  cases stopped

theorem unique {k n : Nat} (stops : StopsAfter runs step i k)
    (stops' : StopsAfter runs step i n) : k = n :=
  Nat.le_antisymm (stops.le_of_stopped stops'.stopped) (stops'.le_of_stopped stops.stopped)

end StopsAfter

/-! ## The collecting loop -/

/-- A loop that ends has collected the free ones among its turns. -/
theorem of_forCollect {found : List α} (ended : forCollect runs free step fuel i = some found) :
    ∃ k, StopsAfter runs step i k ∧
      found = ((List.range k).map fun j => step^[j] i).filter free := by
  induction fuel generalizing i found with
  | zero =>
    simp only [forCollect] at ended
    split at ended
    · cases ended
    · rename_i stopped
      cases ended
      exact ⟨0, .zero (Bool.eq_false_iff.mpr stopped), rfl⟩
  | succ fuel ih =>
    simp only [forCollect] at ended
    split at ended
    · rename_i here
      obtain ⟨rest, later, rfl⟩ := Option.map_eq_some_iff.mp ended
      obtain ⟨k, stops, rfl⟩ := ih later
      refine ⟨k + 1, .succ here stops, ?_⟩
      rw [List.range_succ_eq_map, List.map_cons, List.map_map, List.filter_cons]
      rfl
    · rename_i stopped
      cases ended
      exact ⟨0, .zero (Bool.eq_false_iff.mpr stopped), rfl⟩

theorem forCollect_isSome {n : Nat} (stopped : runs (step^[n] i) = false) (enough : n ≤ fuel) :
    (forCollect runs free step fuel i).isSome = true := by
  induction fuel generalizing i n with
  | zero =>
    obtain rfl : n = 0 := by omega
    rw [Function.iterate_zero_apply] at stopped
    simp only [forCollect, stopped, Bool.false_eq_true, if_false, Option.isSome_some]
  | succ fuel ih =>
    simp only [forCollect]
    split
    · rename_i here
      rw [Option.isSome_map]
      cases n with
      | zero =>
        rw [Function.iterate_zero_apply, here] at stopped
        cases stopped
      | succ n => exact ih stopped (by omega)
    · rfl

/-- With enough turns it comes back with just these. -/
theorem forCollect_eq_some_iff {k : Nat} {found : List α} (stops : StopsAfter runs step i k) :
    (∃ fuel, forCollect runs free step fuel i = some found) ↔
      found = ((List.range k).map fun j => step^[j] i).filter free := by
  constructor
  · rintro ⟨fuel, ended⟩
    obtain ⟨n, stops', same⟩ := of_forCollect ended
    rwa [stops'.unique stops] at same
  · intro same
    have ends : (forCollect runs free step k i).isSome = true :=
      forCollect_isSome stops.stopped (Nat.le_refl k)
    obtain ⟨found', ended⟩ := Option.isSome_iff_exists.mp ends
    obtain ⟨n, stops', same'⟩ := of_forCollect ended
    rw [stops'.unique stops, ← same] at same'
    exact ⟨k, same' ▸ ended⟩

/-- What is collected from the same turns compares as the elements asked for do. -/
theorem forCollect_sublist {free' : α → Bool} {found found' : List α}
    (imp : ∀ i, free' i = true → free i = true)
    (ended : forCollect runs free step fuel i = some found)
    (ended' : forCollect runs free' step fuel i = some found') : found'.Sublist found := by
  obtain ⟨k, stops, rfl⟩ := of_forCollect ended
  obtain ⟨k', stops', rfl⟩ := of_forCollect ended'
  rw [stops.unique stops']
  exact List.monotone_filter_right _ imp

/-! ## The loop that leaves early -/

/-- A loop that ends without a hit has seen nothing free. -/
theorem of_forFirst_none (ended : forFirst runs free step fuel i = some none) :
    ∃ k, StopsAfter runs step i k ∧ ∀ j < k, free (step^[j] i) = false := by
  induction fuel generalizing i with
  | zero =>
    simp only [forFirst] at ended
    split at ended
    · cases ended
    · rename_i stopped
      exact ⟨0, .zero (Bool.eq_false_iff.mpr stopped), fun j before => absurd before j.not_lt_zero⟩
  | succ fuel ih =>
    simp only [forFirst] at ended
    split at ended
    · rename_i here
      split at ended
      · cases ended
      · rename_i full
        obtain ⟨k, stops, none⟩ := ih ended
        refine ⟨k + 1, .succ here stops, ?_⟩
        intro j before
        cases j with
        | zero => exact Bool.eq_false_iff.mpr full
        | succ j => exact none j (Nat.lt_of_succ_lt_succ before)
    · rename_i stopped
      exact ⟨0, .zero (Bool.eq_false_iff.mpr stopped), fun j before => absurd before j.not_lt_zero⟩

/-- A hit is free, and nothing before it is. -/
theorem of_forFirst_some {x : α} (ended : forFirst runs free step fuel i = some (some x)) :
    ∃ k, x = step^[k] i ∧ runs x = true ∧ free x = true ∧
      ∀ j < k, free (step^[j] i) = false := by
  induction fuel generalizing i with
  | zero =>
    simp only [forFirst] at ended
    split at ended <;> cases ended
  | succ fuel ih =>
    simp only [forFirst] at ended
    split at ended
    · rename_i here
      split at ended
      · rename_i hit
        cases ended
        exact ⟨0, rfl, here, hit, fun j before => absurd before j.not_lt_zero⟩
      · rename_i full
        obtain ⟨k, same, turn, hit, before⟩ := ih ended
        refine ⟨k + 1, same, turn, hit, ?_⟩
        intro j earlier
        cases j with
        | zero => exact Bool.eq_false_iff.mpr full
        | succ j => exact before j (Nat.lt_of_succ_lt_succ earlier)
    · cases ended

theorem forFirst_isSome {n : Nat} (stopped : runs (step^[n] i) = false) (enough : n ≤ fuel) :
    (forFirst runs free step fuel i).isSome = true := by
  induction fuel generalizing i n with
  | zero =>
    obtain rfl : n = 0 := by omega
    rw [Function.iterate_zero_apply] at stopped
    simp only [forFirst, stopped, Bool.false_eq_true, if_false, Option.isSome_some]
  | succ fuel ih =>
    simp only [forFirst]
    split
    · rename_i here
      split
      · rfl
      · cases n with
        | zero =>
          rw [Function.iterate_zero_apply, here] at stopped
          cases stopped
        | succ n => exact ih stopped (by omega)
    · rfl

theorem forFirst_isSome_of_free {n : Nat} (hit : free (step^[n] i) = true) (enough : n < fuel) :
    (forFirst runs free step fuel i).isSome = true := by
  induction fuel generalizing i n with
  | zero => omega
  | succ fuel ih =>
    simp only [forFirst]
    split
    · split
      · rfl
      · rename_i full
        cases n with
        | zero => exact absurd hit full
        | succ n => exact ih hit (by omega)
    · rfl

/-- More turns make no difference. -/
theorem forFirst_of_le {n : Nat} {found : Option α}
    (ended : forFirst runs free step fuel i = some found) (more : fuel ≤ n) :
    forFirst runs free step n i = some found := by
  induction fuel generalizing i n with
  | zero =>
    simp only [forFirst] at ended
    split at ended
    · cases ended
    · rename_i stopped
      cases n <;> simpa only [forFirst, if_neg stopped] using ended
  | succ fuel ih =>
    obtain ⟨n, rfl⟩ := Nat.exists_eq_add_of_le' (Nat.le_trans (Nat.le_add_left 1 fuel) more)
    simp only [forFirst] at ended ⊢
    split at ended
    · rename_i here
      rw [if_pos here]
      split at ended
      · rename_i hit
        rwa [if_pos hit]
      · rename_i full
        rw [if_neg full]
        exact ih ended (by omega)
    · rename_i stopped
      rwa [if_neg stopped]

/-- Loops that end, end alike. -/
theorem forCollect_unique {n : Nat} {found found' : List α}
    (ended : forCollect runs free step fuel i = some found)
    (ended' : forCollect runs free step n i = some found') : found = found' := by
  obtain ⟨k, stops, rfl⟩ := of_forCollect ended
  obtain ⟨k', stops', rfl⟩ := of_forCollect ended'
  rw [stops.unique stops']

theorem forFirst_unique {n : Nat} {found found' : Option α}
    (ended : forFirst runs free step fuel i = some found)
    (ended' : forFirst runs free step n i = some found') : found = found' := by
  have first := forFirst_of_le ended (Nat.le_max_left fuel n)
  have second := forFirst_of_le ended' (Nat.le_max_right fuel n)
  rw [first] at second
  exact Option.some.inj second

/-! ## Loops that go together -/

section Together

variable {β γ : Type} {R : α → β → Prop} {out : α → γ} {runs' free' : β → Bool} {step' : β → β}
  {out' : β → γ} {j : β}

/-- Two loops with related counters: at every turn both run on or neither does, and what they
ask and show is the same. -/
structure Together (R : α → β → Prop) (runs free : α → Bool) (step : α → α) (out : α → γ)
    (runs' free' : β → Bool) (step' : β → β) (out' : β → γ) : Prop where
  runs_eq : ∀ {i j}, R i j → runs i = runs' j
  free_eq : ∀ {i j}, R i j → runs' j = true → free i = free' j
  out_eq : ∀ {i j}, R i j → runs' j = true → out i = out' j
  next : ∀ {i j}, R i j → runs' j = true → R (step i) (step' j)

namespace Together

/-- They collect the same. -/
theorem forCollect (loops : Together R runs free step out runs' free' step' out')
    (start : R i j) : (Js.forCollect runs free step fuel i).map (List.map out) =
      (Js.forCollect runs' free' step' fuel j).map (List.map out') := by
  induction fuel generalizing i j with
  | zero =>
    simp only [Js.forCollect, loops.runs_eq start]
    split <;> rfl
  | succ fuel ih =>
    simp only [Js.forCollect, loops.runs_eq start]
    split
    · rename_i here
      have rest := ih (loops.next start here)
      simp only [loops.free_eq start here, Option.map_map]
      split
      · -- the counter is put before what the rest of the loop collects
        have cons := congrArg (Option.map (out' j :: ·)) rest
        simpa only [Option.map_map, Function.comp_def, List.map_cons,
          loops.out_eq start here] using cons
      · exact rest
    · rfl

/-- They leave at the same turn. -/
theorem forFirst (loops : Together R runs free step out runs' free' step' out')
    (start : R i j) : (Js.forFirst runs free step fuel i).map (Option.map out) =
      (Js.forFirst runs' free' step' fuel j).map (Option.map out') := by
  induction fuel generalizing i j with
  | zero =>
    simp only [Js.forFirst, loops.runs_eq start]
    split <;> rfl
  | succ fuel ih =>
    simp only [Js.forFirst, loops.runs_eq start]
    split
    · rename_i here
      simp only [loops.free_eq start here]
      split
      · simp only [Option.map_some, loops.out_eq start here]
      · exact ih (loops.next start here)
    · rfl

/-- What the one collects is what the other does, if that ends. -/
theorem collects_iff {n : Nat} {shown : List γ}
    (loops : Together R runs free step out runs' free' step' out') (start : R i j)
    (ends : (Js.forCollect runs' free' step' n j).isSome = true) :
    (∃ fuel, (Js.forCollect runs free step fuel i).map (List.map out) = some shown) ↔
      (Js.forCollect runs' free' step' n j).map (List.map out') = some shown := by
  constructor
  · rintro ⟨fuel, collected⟩
    rw [loops.forCollect start] at collected
    obtain ⟨found, ended, rfl⟩ := Option.map_eq_some_iff.mp collected
    obtain ⟨found', ended'⟩ := Option.isSome_iff_exists.mp ends
    rw [ended', forCollect_unique ended' ended, Option.map_some]
  · intro collected
    exact ⟨n, (loops.forCollect start).trans collected⟩

/-- What the one finds is what the other does. -/
theorem exists_found {n : Nat} {found' : Option β}
    (loops : Together R runs free step out runs' free' step' out') (start : R i j)
    (ended : Js.forFirst runs' free' step' n j = some found') :
    ∃ found, Js.forFirst runs free step n i = some found ∧ found.map out = found'.map out' := by
  have same : (Js.forFirst runs free step n i).map (Option.map out) = _ := loops.forFirst start
  rw [ended, Option.map_some] at same
  exact Option.map_eq_some_iff.mp same

end Together

end Together

/-! ## Whether a loop ends -/

theorem forCollect_ends_iff : (∃ fuel, (forCollect runs free step fuel i).isSome = true) ↔
    ∃ k, runs (step^[k] i) = false := by
  constructor
  · rintro ⟨fuel, ended⟩
    obtain ⟨found, ended⟩ := Option.isSome_iff_exists.mp ended
    obtain ⟨k, stops, -⟩ := of_forCollect ended
    exact ⟨k, stops.stopped⟩
  · rintro ⟨k, stopped⟩
    exact ⟨k, forCollect_isSome stopped (Nat.le_refl k)⟩

/-- The search ends if its counter does, or at a hit. -/
theorem forFirst_ends_iff : (∃ fuel, (forFirst runs free step fuel i).isSome = true) ↔
    (∃ k, runs (step^[k] i) = false) ∨
      ∃ k, runs (step^[k] i) = true ∧ free (step^[k] i) = true := by
  constructor
  · rintro ⟨fuel, ended⟩
    obtain ⟨found, ended⟩ := Option.isSome_iff_exists.mp ended
    cases found with
    | none =>
      obtain ⟨k, stops, -⟩ := of_forFirst_none ended
      exact .inl ⟨k, stops.stopped⟩
    | some x =>
      obtain ⟨k, rfl, here, hit, -⟩ := of_forFirst_some ended
      exact .inr ⟨k, here, hit⟩
  · rintro (⟨k, stopped⟩ | ⟨k, -, hit⟩)
    · exact ⟨k, forFirst_isSome stopped (Nat.le_refl k)⟩
    · exact ⟨k + 1, forFirst_isSome_of_free hit (Nat.lt_succ_self k)⟩

section Counters

variable (runs : α → Bool) (step : α → α) (inv : α → Prop)

/-- A counter that climbs below a bound stops. -/
theorem exists_stopped (rank : α → Int) {top : Int} (start : inv i)
    (climbs : ∀ x, inv x → runs x = true → inv (step x) ∧ rank x < rank (step x))
    (bounded : ∀ x, rank x ≤ top) : ∃ k, runs (step^[k] i) = false := by
  by_contra endless
  rw [not_exists] at endless
  have climbed : ∀ k : Nat, inv (step^[k] i) ∧ rank i + k ≤ rank (step^[k] i) := by
    intro k
    induction k with
    | zero => exact ⟨start, Int.le_of_eq (Int.add_zero _)⟩
    | succ k ih =>
      obtain ⟨kept, higher⟩ := climbs _ ih.1 (Bool.not_eq_false _ ▸ endless k)
      rw [Function.iterate_succ_apply']
      have := ih.2
      exact ⟨kept, by omega⟩
  have past := (climbed (top - rank i + 1).toNat).2
  have within := bounded (step^[(top - rank i + 1).toNat] i)
  omega

/-- A counter that stays where the loop runs does not stop. -/
theorem runs_iterate (start : inv i) (kept : ∀ x, inv x → inv (step x))
    (run : ∀ x, inv x → runs x = true) (k : Nat) : runs (step^[k] i) = true := by
  apply run
  induction k with
  | zero => exact start
  | succ k ih =>
    rw [Function.iterate_succ_apply']
    exact kept _ ih

end Counters

end Js
