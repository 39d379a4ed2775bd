import Mathlib.Data.List.Basic

/-!
# The Redis server behind `RedisService`

Keys with values, and the four commands the service uses.  Entries live until
they are deleted or expire; when an entry expires is up to the server, and so
is what a `SCAN` returns, within its guarantee: an iteration returns matching
keys only, in batches of any size and order and with repetitions, and every
matching key that was present from its start to its end is returned at least
once.

For that guarantee an entry carries the time it came into being (`born`), and
the cursor between two `SCAN` calls stands for what the iteration still owes:
the entries present at its start that no batch has returned.  Clients compare
cursors with `'0'` only.
-/

namespace RestaurantAssistant

structure Entry (V : Type) where
  key : String
  value : V
  born : Nat
  deriving DecidableEq

structure Redis (V : Type) where
  entries : List (Entry V)
  clock : Nat
  deriving DecidableEq

/-- The cursor `'0'` is `none`; any other one is what the iteration owes. -/
abbrev Cursor := Option (List (String × Nat))

/-- The commands the service sends. -/
inductive RedisCall (V : Type)
  | get (key : String)
  | set (key : String) (value : V) (ttl : Nat)
  | scan (cursor : Cursor) (pattern : String) (count : Nat)
  | del (keys : List String)
  deriving DecidableEq

@[reducible] def RedisCall.Reply {V : Type} : RedisCall V → Type
  | .get _ => Option V
  | .set _ _ _ => Unit
  | .scan _ _ _ => Cursor × List String
  | .del _ => Unit

/-- What the server decides: nothing, or the batch of a `SCAN` and whether it
is the last one. -/
inductive Choice
  | reply
  | batch (last : Bool) (keys : List String)
  deriving DecidableEq

/-- Glob match with `*` for any text; other characters stand for themselves. -/
def globMatch : List Char → List Char → Bool
  | [], text => text.isEmpty
  | c :: pattern, text =>
    if c = '*' then text.tails.any (globMatch pattern)
    else match text with
      | [] => false
      | d :: text => c == d && globMatch pattern text

namespace Redis

variable {V : Type}

def empty : Redis V := ⟨[], 0⟩

def get (R : Redis V) (key : String) : Option V :=
  (R.entries.find? fun e => e.key = key).map Entry.value

/-- An existing key keeps its place, and with it the time it was born. -/
def set (R : Redis V) (key : String) (value : V) : Redis V :=
  if R.entries.any (fun e => e.key = key) then
    { R with entries := R.entries.map fun e => if e.key = key then { e with value } else e }
  else ⟨R.entries ++ [⟨key, value, R.clock⟩], R.clock + 1⟩

def del (R : Redis V) (keys : List String) : Redis V :=
  { R with entries := R.entries.filter fun e => e.key ∉ keys }

/-- The entries a cursor owes, for an iteration over `pattern`. -/
def owed (R : Redis V) (pattern : String) : Cursor → List (String × Nat)
  | none => (R.entries.filter fun e => globMatch pattern.toList e.key.toList).map
      fun e => (e.key, e.born)
  | some owed => owed

/-- Has the entry been present ever since? -/
def live (R : Redis V) (k : String × Nat) : Bool :=
  R.entries.any fun e => e.key = k.1 && e.born = k.2

/-- Outcome and effect of a command; `none` if the server may not decide so. -/
def answer (R : Redis V) : Choice → (call : RedisCall V) → Option (call.Reply × Redis V)
  | .reply, .get key => some (R.get key, R)
  | .reply, .set key value _ => some ((), R.set key value)
  | .reply, .del keys => some ((), R.del keys)
  | .batch last keys, .scan cursor pattern _ =>
    let owed := (R.owed pattern cursor).filter fun k => k.1 ∉ keys
    if keys.all (fun key => globMatch pattern.toList key.toList) &&
        (!last || owed.all fun k => !R.live k) then
      some ((if last then none else some owed, keys), R)
    else none
  | _, _ => none

/-- An entry expires. -/
def expire (R : Redis V) (key : String) : Redis V := R.del [key]

/-! ## Entries -/

variable {R : Redis V} {e : Entry V}

theorem mem_del {keys : List String} :
    e ∈ (R.del keys).entries ↔ e ∈ R.entries ∧ e.key ∉ keys := by
  simp [del]

theorem del_nil : R.del [] = R := by
  simp [del]

theorem del_del (keys keys' : List String) : (R.del keys).del keys' = R.del (keys ++ keys') := by
  unfold del
  rw [List.filter_filter]
  congr 1
  apply List.filter_congr
  intro e _
  simp [Bool.and_comm]

theorem live_of_del {keys : List String} {k : String × Nat} (live : (R.del keys).live k = true) :
    R.live k = true ∧ k.1 ∉ keys := by
  obtain ⟨e, member, same⟩ := List.any_eq_true.mp live
  obtain ⟨was, kept⟩ := mem_del.mp member
  have key : e.key = k.1 := by
    simp only [Bool.and_eq_true, decide_eq_true_eq] at same
    exact same.1
  exact ⟨List.any_eq_true.mpr ⟨e, was, same⟩, key ▸ kept⟩

/-- What an iteration owed is gone if its batch and the later ones are deleted. -/
theorem gone_of_kept {keys keys' : List String} {owed : List (String × Nat)} {next : Cursor}
    (kept : ∀ k ∈ owed, R.live k = true → k.1 ∈ keys ∨ ∃ later, next = some later ∧ k ∈ later)
    (paid : ∀ later, next = some later → ∀ k ∈ later, (R.del (keys ++ keys')).live k = false) :
    ∀ k ∈ owed, (R.del (keys ++ keys')).live k = false := by
  intro k owes
  rw [← Bool.not_eq_true]
  intro live
  obtain ⟨was, absent⟩ := live_of_del live
  rcases kept k owes was with returned | ⟨later, same, member⟩
  · exact absent (List.mem_append_left _ returned)
  · rw [paid later same k member] at live
    cases live

/-- A stored entry is an old one under another key, or has the new key and value. -/
theorem mem_set {key : String} {value : V} (member : e ∈ (R.set key value).entries) :
    e ∈ R.entries ∧ e.key ≠ key ∨ e.key = key ∧ e.value = value := by
  unfold set at member
  split at member
  · obtain ⟨old, was, rfl⟩ := List.mem_map.mp member
    by_cases same : old.key = key
    · rw [if_pos same]
      exact .inr ⟨same, rfl⟩
    · rw [if_neg same]
      exact .inl ⟨was, same⟩
  · rename_i absent
    rcases List.mem_append.mp member with was | new
    · refine .inl ⟨was, fun same => absent ?_⟩
      exact List.any_eq_true.mpr ⟨e, was, by simpa using same⟩
    · cases List.mem_singleton.mp new
      exact .inr ⟨rfl, rfl⟩

theorem exists_of_get {key : String} {value : V} (found : R.get key = some value) :
    ∃ e ∈ R.entries, e.key = key ∧ e.value = value := by
  obtain ⟨e, first, rfl⟩ := Option.map_eq_some_iff.mp found
  exact ⟨e, List.mem_of_find?_eq_some first, by simpa using List.find?_some first, rfl⟩

/-- Reading after the entries of some keys are gone. -/
theorem get_of_filter {S : Redis V} {p : String → Bool}
    (left : S.entries = R.entries.filter fun e => p e.key) (key : String) :
    S.get key = if p key then R.get key else none := by
  unfold get
  rw [left, List.find?_filter]
  split
  · rename_i kept
    congr 2
    funext e
    by_cases same : e.key = key
    · simp [same, kept]
    · simp [same]
  · rename_i gone
    rw [Option.map_eq_none_iff, List.find?_eq_none]
    intro e _ found
    simp only [decide_eq_true_eq] at found
    exact gone (found.2 ▸ found.1)

end Redis

end RestaurantAssistant
