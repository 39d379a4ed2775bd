import Mathlib.Data.List.Basic

/-!
# Regular patterns over the whole of a text

The patterns `/^…$/` the source matches fixed-shape texts with: character
classes, sequence and alternative, and optional parts.  `Pattern.test` is the
anchored match.
-/

namespace Js

inductive Pattern
  /-- The empty text. -/
  | empty
  /-- One character in one of the ranges, such as `[0-5]` or `[01]`. -/
  | chars (ranges : List (Char × Char))
  | seq (p q : Pattern)
  | alt (p q : Pattern)

namespace Pattern

/-- The character itself. -/
def char (c : Char) : Pattern := .chars [(c, c)]

/-- The class `\d`. -/
def digit : Pattern := .chars [('0', '9')]

/-- An optional part, `p?`. -/
def opt (p : Pattern) : Pattern := .alt p .empty

/-- The parts one after the other. -/
def seqs (parts : List Pattern) : Pattern := parts.foldr .seq .empty

/-- Is the character in one of the ranges? -/
def accepts (ranges : List (Char × Char)) (c : Char) : Bool :=
  ranges.any fun r => r.1.toNat ≤ c.toNat && c.toNat ≤ r.2.toNat

/-- What can be left of a text after the pattern has matched a prefix of it. -/
def rests : Pattern → List Char → List (List Char)
  | .empty, text => [text]
  | .chars _, [] => []
  | .chars ranges, c :: text => if accepts ranges c then [text] else []
  | .seq p q, text => (p.rests text).flatMap q.rests
  | .alt p q, text => p.rests text ++ q.rests text

/-- The anchored match `/^p$/.test(text)`. -/
def test (p : Pattern) (text : String) : Bool := (p.rests text.toList).contains []

theorem test_iff {p : Pattern} {text : String} : p.test text = true ↔ [] ∈ p.rests text.toList := by
  simp [test]

theorem mem_rests_chars {ranges : List (Char × Char)} {text rest : List Char} :
    rest ∈ (chars ranges).rests text ↔ ∃ c, accepts ranges c = true ∧ text = c :: rest := by
  cases text with
  | nil => simp [rests]
  | cons c cs =>
    by_cases accepted : accepts ranges c = true
    · simp only [rests, accepted, if_true, List.mem_singleton, List.cons.injEq]
      constructor
      · rintro rfl
        exact ⟨c, accepted, rfl, rfl⟩
      · rintro ⟨c', _, rfl, rfl⟩
        rfl
    · simp only [rests, accepted]
      constructor
      · intro member
        cases member
      · rintro ⟨c', accepted', same⟩
        cases same
        exact absurd accepted' accepted

theorem mem_rests_seq {p q : Pattern} {text rest : List Char} :
    rest ∈ (seq p q).rests text ↔ ∃ middle, middle ∈ p.rests text ∧ rest ∈ q.rests middle := by
  simp [rests, List.mem_flatMap]

theorem mem_rests_alt {p q : Pattern} {text rest : List Char} :
    rest ∈ (alt p q).rests text ↔ rest ∈ p.rests text ∨ rest ∈ q.rests text := by
  simp [rests]

end Pattern

end Js
