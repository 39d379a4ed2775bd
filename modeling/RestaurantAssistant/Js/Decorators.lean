import Mathlib.Data.List.Basic

/-!
# Validation by decorators

A class declares, property by property, validators with their messages and
conditions under which the property is looked at.  `validate` collects what
fails; an object is accepted if nothing does.

A property whose `ValidateIf` condition is false has all its other validators
skipped.  A nested object is not looked into: that takes a decorator of its own,
which no property here has.
-/

namespace Js

/-- A decorator: the constraint it names, its check on the whole object, and its
message. -/
structure Validator (α : Type) where
  constraint : String
  check : α → Bool
  message : String

/-- A decorated property. -/
structure Property (α : Type) where
  name : String
  validateIf : α → Bool := fun _ => true
  validators : List (Validator α)

/-- What failed on one property. -/
structure ValidationError where
  property : String
  constraints : List (String × String)
  deriving DecidableEq

variable {α : Type} {object : α}

def Property.validate (property : Property α) (object : α) : Option ValidationError :=
  if property.validateIf object then
    let failed := property.validators.filter fun v => !v.check object
    if failed.isEmpty then none
    else some ⟨property.name, failed.map fun v => (v.constraint, v.message)⟩
  else none

def validate (properties : List (Property α)) (object : α) : List ValidationError :=
  properties.filterMap fun property => property.validate object

/-- Nothing fails. -/
def accepts (properties : List (Property α)) (object : α) : Bool :=
  (validate properties object).isEmpty

/-- A property has nothing to complain of if it is not looked at, or all its
validators pass. -/
theorem Property.validate_eq_none {property : Property α} :
    property.validate object = none ↔ (property.validateIf object = true →
      ∀ v ∈ property.validators, v.check object = true) := by
  unfold Property.validate
  by_cases looked : property.validateIf object = true
  · rw [if_pos looked]
    simp only [looked, forall_const]
    constructor
    · intro none v member
      split at none
      · rename_i empty
        have passed := List.filter_eq_nil_iff.mp (List.isEmpty_iff.mp empty) v member
        simpa using passed
      · cases none
    · intro passed
      refine if_pos (List.isEmpty_iff.mpr (List.filter_eq_nil_iff.mpr ?_))
      intro v member
      rw [passed v member]
      decide
  · rw [if_neg looked]
    simp [looked]

theorem accepts_iff {properties : List (Property α)} :
    accepts properties object = true ↔ ∀ property ∈ properties,
      property.validateIf object = true → ∀ v ∈ property.validators, v.check object = true := by
  unfold accepts validate
  rw [List.isEmpty_iff, List.filterMap_eq_nil_iff]
  simp only [Property.validate_eq_none]

/-! ## Decorators of single fields -/

variable {β : Type}

/-- A decorator that looks at one field. -/
def Validator.on (field : α → β) (v : Validator β) : Validator α where
  constraint := v.constraint
  check object := v.check (field object)
  message := v.message

/-- A property with decorators that look at its own field. -/
def Property.on (name : String) (field : α → β) (validators : List (Validator β)) : Property α where
  name := name
  validators := validators.map (Validator.on field)

/-- The same with `@IsOptional()`: a field that is missing is not looked at. -/
def Property.optional (name : String) (field : α → Option β) (validators : List (Validator β)) :
    Property α where
  name := name
  validateIf object := (field object).isSome
  validators := validators.map fun v => ⟨v.constraint, fun o => (field o).all v.check, v.message⟩

/-- The messages of what fails, property by property. -/
def complaints (properties : List (Property α)) (object : α) : List (List String) :=
  (validate properties object).map fun error => error.constraints.map Prod.snd

theorem complaints_eq_nil {properties : List (Property α)} :
    complaints properties object = [] ↔ accepts properties object = true := by
  unfold complaints accepts
  rw [List.map_eq_nil_iff, List.isEmpty_iff]

/-- The decorators of the fields, one after the other. -/
theorem accepts_cons_on {name : String} {field : α → β} {validators : List (Validator β)}
    {properties : List (Property α)} :
    accepts (.on name field validators :: properties) object = true ↔
      (∀ v ∈ validators, v.check (field object) = true) ∧ accepts properties object = true := by
  simp only [accepts_iff, List.forall_mem_cons]
  refine and_congr_left fun _ => ?_
  simp [Property.on, Validator.on]

theorem accepts_cons_optional {name : String} {field : α → Option β}
    {validators : List (Validator β)} {properties : List (Property α)} :
    accepts (.optional name field validators :: properties) object = true ↔
      (∀ b, field object = some b → ∀ v ∈ validators, v.check b = true) ∧
        accepts properties object = true := by
  simp only [accepts_iff, List.forall_mem_cons]
  refine and_congr_left fun _ => ?_
  cases given : field object with
  | none => simp [Property.optional, given]
  | some b => simp [Property.optional, given]

/-- Whatever fails has a message of its own, which is one of its property's. -/
theorem complaints_declared {properties : List (Property α)} {messages : List String}
    (member : messages ∈ complaints properties object) : messages ≠ [] ∧
      ∀ message ∈ messages, ∃ property ∈ properties, ∃ v ∈ property.validators,
        v.message = message := by
  obtain ⟨error, reported, rfl⟩ := List.mem_map.mp member
  obtain ⟨property, declared, failed⟩ := List.mem_filterMap.mp reported
  unfold Property.validate at failed
  split at failed
  · dsimp only at failed
    split at failed
    · cases failed
    · rename_i some_
      cases failed
      constructor
      · simpa using some_
      · intro message given
        rw [List.map_map] at given
        obtain ⟨v, fails, rfl⟩ := List.mem_map.mp given
        exact ⟨property, declared, v, (List.mem_filter.mp fails).1, rfl⟩
  · cases failed

end Js
