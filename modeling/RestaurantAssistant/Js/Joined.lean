import Mathlib.Data.List.Basic

/-!
# Joined texts

`texts.join(', ')` and back: a reader who splits at the separator and drops the space after
it recovers the texts, if none of them holds the separator or starts with a space.
-/

namespace Js

/-- A text without the space in front. -/
def unindent : List Char → List Char
  | ' ' :: cs => cs
  | cs => cs

/-- The parts of a text between the separators, each without the space in front. -/
def parts (c : Char) (text : String) : List String :=
  (text.toList.splitOn c).map fun part => String.ofList (unindent part)

/-- A text that can be told from what surrounds it. -/
def Separable (c : Char) (text : String) : Prop :=
  c ∉ text.toList ∧ text.toList.head? ≠ some ' '

instance (c : Char) (text : String) : Decidable (Separable c text) :=
  inferInstanceAs (Decidable (_ ∧ _))

variable {c : Char} {texts : List String}

theorem unindent_of_head {cs : List Char} (head : cs.head? ≠ some ' ') : unindent cs = cs := by
  unfold unindent
  split
  · exact absurd rfl head
  · rfl

/-- The space belongs to the text that follows it. -/
theorem intercalate_indented (x : List Char) (xs : List (List Char)) :
    [c, ' '].intercalate (x :: xs) = [c].intercalate (x :: xs.map (' ' :: ·)) := by
  induction xs generalizing x with
  | nil => simp
  | cons y ys ih =>
    rw [List.intercalate_cons_cons, ih y, List.map_cons, List.intercalate_cons_cons]
    cases ys with
    | nil => simp
    | cons z zs => simp [List.intercalate_cons_cons]

theorem parts_intercalate (spaced : c ≠ ' ') (nonempty : texts ≠ [])
    (separable : ∀ text ∈ texts, Separable c text) :
    parts c ((String.ofList [c, ' ']).intercalate texts) = texts := by
  obtain ⟨text, others, rfl⟩ := List.exists_cons_of_ne_nil nonempty
  have apart : ∀ part ∈ text.toList :: (others.map String.toList).map (' ' :: ·), c ∉ part := by
    intro part member
    rcases List.mem_cons.mp member with rfl | member
    · exact (separable text List.mem_cons_self).1
    · rw [List.map_map] at member
      obtain ⟨other, isOther, rfl⟩ := List.mem_map.mp member
      intro inside
      rcases List.mem_cons.mp inside with same | inside
      · exact spaced same
      · exact (separable other (List.mem_cons_of_mem _ isOther)).1 inside
  unfold parts
  rw [String.toList_intercalate, String.toList_ofList, List.map_cons, intercalate_indented,
    List.splitOn_intercalate c apart (List.cons_ne_nil _ _), List.map_cons,
    unindent_of_head (separable text List.mem_cons_self).2, String.ofList_toList]
  congr 1
  rw [List.map_map, List.map_map]
  have same : ((fun part => String.ofList (unindent part)) ∘ (' ' :: ·)) ∘ String.toList = id := by
    funext other
    exact String.ofList_toList
  rw [same, List.map_id]

/-- What is joined at one separator can be joined again at another. -/
theorem separable_intercalate {d : Char} (other : c ≠ d) (spaced : c ≠ ' ') (shown : d ≠ ' ')
    (separable : ∀ text ∈ texts, Separable c text) :
    Separable c ((String.ofList [d, ' ']).intercalate texts) := by
  induction texts with
  | nil =>
    rw [String.intercalate_nil]
    exact ⟨List.not_mem_nil, by simp⟩
  | cons text texts ih =>
    have first := separable text List.mem_cons_self
    have rest := ih fun text' member => separable text' (List.mem_cons_of_mem _ member)
    cases texts with
    | nil =>
      rw [String.intercalate_singleton]
      exact first
    | cons next texts =>
      rw [String.intercalate_cons_cons]
      unfold Separable at first rest ⊢
      simp only [String.toList_append, String.toList_ofList, List.mem_append, not_or,
        List.append_assoc]
      refine ⟨⟨first.1, ?_, rest.1⟩, ?_⟩
      · simp [other, spaced]
      · cases chars : text.toList with
        | nil => simpa using shown
        | cons x xs =>
          rw [chars] at first
          simpa using first.2

end Js
