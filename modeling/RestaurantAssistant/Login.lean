import RestaurantAssistant.Users

/-!
# Logging in

Which password logs a user in: the one the last successful mutation supplied, unless
that was an empty one given to `updateUser` (`login_follows_last_password`).

`eval_createUser` and `eval_updateUser` say what the mutations do to the table;
`StoresPassword` ties the stored password to the mutation that supplied it, and every
mutation keeps it (`stored_of_session`).
-/

namespace RestaurantAssistant

open Awaiting Js

variable {bcrypt : Bcrypt} {T T' : Users} {user : User}

/-! ## What the calls do -/

section Calls

variable {α : Type} {out : Except UserExn α} {c : UserChoice}

/-- A call that leaves nothing open has one answer. -/
theorem answer_reply {call : UserCall} {r r₀ : Except UserExn call.Reply}
    (one : (userInterp bcrypt).answer .reply call T = some (r₀, T))
    (unsalted : ∀ salt, (userInterp bcrypt).answer (.salt salt) call T = none)
    (ungenerated : ∀ id now, (userInterp bcrypt).answer (.generated id now) call T = none) :
    (userInterp bcrypt).answer c call T = some (r, T') ↔ c = .reply ∧ r = r₀ ∧ T' = T := by
  constructor
  · intro answered
    cases c with
    | reply =>
      rw [one] at answered
      cases answered
      exact ⟨rfl, rfl, rfl⟩
    | salt salt =>
      rw [unsalted] at answered
      cases answered
    | generated id now =>
      rw [ungenerated] at answered
      cases answered
  · intro only
    obtain ⟨rfl, rfl, rfl⟩ := only
    exact one

theorem answer_findByUsername {username : String} {r : Except UserExn (Option User)} :
    (userInterp bcrypt).answer c (.findByUsername username) T = some (r, T') ↔
      c = .reply ∧ r = .ok (T.byUsername username) ∧ T' = T :=
  answer_reply rfl (fun _ => rfl) fun _ _ => rfl

theorem answer_findByEmail {email : String} {r : Except UserExn (Option User)} :
    (userInterp bcrypt).answer c (.findByEmail email) T = some (r, T') ↔
      c = .reply ∧ r = .ok (T.byEmail email) ∧ T' = T :=
  answer_reply rfl (fun _ => rfl) fun _ _ => rfl

theorem answer_compare {password stored : String} {r : Except UserExn Bool} :
    (userInterp bcrypt).answer c (.compare password stored) T = some (r, T') ↔
      c = .reply ∧ r = .ok (bcrypt.compare password stored) ∧ T' = T :=
  answer_reply rfl (fun _ => rfl) fun _ _ => rfl

theorem answer_hash {password : String} {rounds : Nat} {r : Except UserExn String} :
    (userInterp bcrypt).answer c (.hash password rounds) T = some (r, T') ↔
      ∃ salt, c = .salt salt ∧ r = .ok (bcrypt.hash password rounds salt) ∧ T' = T := by
  constructor
  · intro answered
    cases c <;> cases answered
    exact ⟨_, rfl, rfl, rfl⟩
  · intro salted
    obtain ⟨salt, rfl, rfl, rfl⟩ := salted
    rfl

/-- What saving an entity does: nothing, or it writes the entity's row. -/
theorem answer_save {entity : UserDraft} {r : Except UserExn User}
    (answered : (userInterp bcrypt).answer c (.save entity) T = some (r, T')) :
    r = .error .rejected ∧ T' = T ∨
      ∃ row : User, r = .ok row ∧ entity.password = some row.password ∧
        row.username = entity.username ∧ (∀ id, entity.id = some id → row.id = id) ∧
        T'.rows = if entity.id.isSome then T.put row else T.rows ++ [row] := by
  cases c with
  | reply => cases answered
  | salt salt => cases answered
  | generated id now =>
    have saved : T.save id now entity = (r, T') := Option.some.inj answered
    unfold Users.save at saved
    split at saved
    · rename_i password role given _
      simp only at saved
      split at saved
      · rename_i T'' built
        cases saved
        refine .inr ⟨_, rfl, given, rfl, ?_, Users.rows_of_ofRows built⟩
        intro id' known
        rw [known]
        rfl
      · cases saved
        exact .inl ⟨rfl, rfl⟩
    · cases saved
      exact .inl ⟨rfl, rfl⟩

end Calls

/-! ## What the mutations do -/

section Mutations

variable {out : Except UserExn UserRecord} {α : Type} {outcome : Except UserExn α}

/-- An await of the server: the call is answered, or rejected. -/
theorem eval_await {call : UserCall} {k : Except UserExn call.Reply → Async userApi α}
    (run : Eval (userServer bcrypt).interp (.await call k) T outcome T') :
    (∃ c r T₁, (userInterp bcrypt).answer c call T = some (r, T₁) ∧
      Eval (userServer bcrypt).interp (k r) T₁ outcome T') ∨
    Eval (userServer bcrypt).interp (k (.error .rejected)) T outcome T' := by
  rcases Eval.failing_iff.mp run with answered | ⟨-, rejected⟩
  · exact .inl answered
  · exact .inr rejected

/-- The mutation failed and changed nothing. -/
def FailedIn (T : Users) (out : Except UserExn UserRecord) (T' : Users) : Prop :=
  (∃ e, out = .error e) ∧ T' = T

theorem failedIn_of_throw {e : UserExn}
    (run : Eval (userServer bcrypt).interp (.throw e) T out T') : FailedIn T out T' := by
  obtain ⟨rfl, rfl⟩ := Eval.throw_iff.mp run
  exact ⟨⟨e, rfl⟩, rfl⟩

/-- A call with one answer, which changes nothing. -/
theorem eval_read {call : UserCall} {k : Except UserExn call.Reply → Async userApi UserRecord}
    {r : Except UserExn call.Reply}
    (only : ∀ {c r' T'}, (userInterp bcrypt).answer c call T = some (r', T') ↔
      c = .reply ∧ r' = r ∧ T' = T)
    (rethrows : k (.error .rejected) = .throw (.rejected : UserExn))
    (run : Eval (userServer bcrypt).interp (.await call k) T out T') :
    FailedIn T out T' ∨ Eval (userServer bcrypt).interp (k r) T out T' := by
  rcases eval_await run with ⟨c, r', T₁, answered, rest⟩ | rejected
  · obtain ⟨-, same, after⟩ := only.mp answered
    rw [same, after] at rest
    exact .inr rest
  · rw [rethrows] at rejected
    exact .inl (failedIn_of_throw rejected)

theorem eval_hash {password : String} {rounds : Nat}
    {k : Except UserExn String → Async userApi UserRecord}
    (rethrows : k (.error .rejected) = .throw (.rejected : UserExn))
    (run : Eval (userServer bcrypt).interp (.await (.hash password rounds) k) T out T') :
    FailedIn T out T' ∨ ∃ salt,
      Eval (userServer bcrypt).interp (k (.ok (bcrypt.hash password rounds salt))) T out T' := by
  rcases eval_await run with ⟨c, r, T₁, answered, rest⟩ | rejected
  · obtain ⟨salt, -, same, after⟩ := answer_hash.mp answered
    rw [same, after] at rest
    exact .inr ⟨salt, rest⟩
  · rw [rethrows] at rejected
    exact .inl (failedIn_of_throw rejected)

/-- Saving an entity and returning it without its password. -/
theorem eval_save {entity : UserDraft}
    (run : Eval (userServer bcrypt).interp
      (UserService.save entity >>= fun savedUser => pure savedUser.toUserRecord) T out T') :
    FailedIn T out T' ∨
      ∃ row : User, out = .ok row.toUserRecord ∧ entity.password = some row.password ∧
        row.username = entity.username ∧ (∀ id, entity.id = some id → row.id = id) ∧
        T'.rows = if entity.id.isSome then T.put row else T.rows ++ [row] := by
  rcases eval_await run with ⟨c, r, T₁, answered, rest⟩ | rejected
  · rcases answer_save answered with ⟨rfl, rfl⟩ | ⟨row, rfl, written⟩
    · exact .inl (failedIn_of_throw rest)
    · obtain ⟨rfl, rfl⟩ := Eval.pure_iff.mp rest
      exact .inr ⟨row, rfl, written⟩
  · exact .inl (failedIn_of_throw rejected)

/-- **Registering** fails, or appends a user of a new name with a hash of the
password. -/
theorem eval_createUser {username email password : String} {role : Arg String}
    (run : Eval (userServer bcrypt).interp
      (UserService.createUser username email password role) T out T') :
    FailedIn T out T' ∨
      ∃ (row : User) (salt : Salt), out = .ok row.toUserRecord ∧ row.username = username ∧
        row.password = bcrypt.hash password UserService.saltRounds salt ∧
        T.byUsername username = none ∧ T'.rows = T.rows ++ [row] := by
  unfold UserService.createUser at run
  rcases eval_read answer_findByUsername rfl run with failed | byName
  · exact .inl failed
  cases found : T.byUsername username with
  | some user =>
    rw [found] at byName
    exact .inl (failedIn_of_throw byName)
  | none =>
    rw [found] at byName
    rcases eval_read answer_findByEmail rfl byName with failed | byEmail
    · exact .inl failed
    cases taken : T.byEmail email with
    | some user =>
      rw [taken] at byEmail
      exact .inl (failedIn_of_throw byEmail)
    | none =>
      rw [taken] at byEmail
      rcases eval_hash rfl byEmail with failed | ⟨salt, hashed⟩
      · exact .inl failed
      rcases eval_save hashed with failed | ⟨row, rfl, stored, name, -, rows⟩
      · exact .inl failed
      · exact .inr ⟨row, salt, rfl, name, (Option.some.inj stored).symm, rfl, rows⟩

/-- What `updateUser` stores as the password of a user who had the password `old`:
the same, the empty one as it is, or a hash. -/
def Replaces (bcrypt : Bcrypt) (old : String) (given : Arg String) (stored : String) : Prop :=
  given = .undefined ∧ stored = old ∨
  given = .given "" ∧ stored = "" ∨
  ∃ password salt, given = .given password ∧ password ≠ "" ∧
    stored = bcrypt.hash password UserService.saltRounds salt

/-- A password that is not truthy is left out or empty; `null` is not stored. -/
theorem replaces_of_falsy {given : Arg String} {old stored : String} (falsy : given.text = none)
    (assigned : given.assign old = some stored) : Replaces bcrypt old given stored := by
  cases given with
  | undefined => exact .inl ⟨rfl, (Option.some.inj assigned).symm⟩
  | null => cases assigned
  | given password =>
    rw [Arg.text_given_eq_none.mp falsy] at assigned ⊢
    exact .inr (.inl ⟨rfl, (Option.some.inj assigned).symm⟩)

/-- **Updating** fails, or rewrites the row of the user with that name. -/
theorem eval_updateUser {username : String} {input : UpdateUserInput}
    (run : Eval (userServer bcrypt).interp (UserService.updateUser username input) T out T') :
    FailedIn T out T' ∨
      ∃ old row : User, out = .ok row.toUserRecord ∧ T.byUsername username = some old ∧
        row.username = old.username ∧ row.id = old.id ∧
        Replaces bcrypt old.password input.password row.password ∧ T'.rows = T.put row := by
  unfold UserService.updateUser at run
  rcases eval_read answer_findByUsername rfl run with failed | byName
  · exact .inl failed
  cases found : T.byUsername username with
  | none =>
    rw [found] at byName
    exact .inl (failedIn_of_throw byName)
  | some old =>
    rw [found] at byName
    cases truthy : input.password.text with
    | some password =>
      obtain ⟨given, nonempty⟩ := Arg.text_eq_some.mp truthy
      simp only [truthy] at byName
      rcases eval_hash rfl byName with failed | ⟨salt, hashed⟩
      · exact .inl failed
      rcases eval_save hashed with failed | ⟨row, rfl, stored, name, id, rows⟩
      · exact .inl failed
      · refine .inr ⟨old, row, rfl, rfl, name, id _ rfl, ?_, rows⟩
        exact .inr (.inr ⟨password, salt, given, nonempty, (Option.some.inj stored).symm⟩)
    | none =>
      simp only [truthy] at byName
      rcases eval_save byName with failed | ⟨row, rfl, stored, name, id, rows⟩
      · exact .inl failed
      · refine .inr ⟨old, row, rfl, rfl, name, id _ rfl, ?_, rows⟩
        exact replaces_of_falsy truthy stored

end Mutations

/-! ## The last password -/

/-- The password the mutation supplies for a user. -/
def UserMutation.password (username : String) : UserMutation → Option String
  | .createUser input => if input.username = username then some input.password else none
  | .updateUser name input => if name = username then input.password.toOption else none

/-- Is the password hashed?  `updateUser` does not hash an empty one. -/
def UserMutation.hashes : UserMutation → Bool
  | .createUser _ => true
  | .updateUser _ input => input.password ≠ .given ""

/-- The mutations served, with their outcomes. -/
abbrev UserLog := List (UserMutation × Except UserExn UserRecord)

/-- Did the mutation succeed and supply a password for the user? -/
def supplies (username : String) (entry : UserMutation × Except UserExn UserRecord) : Bool :=
  entry.2.isOk && (entry.1.password username).isSome

/-- The last successful mutation that supplied a password for the user. -/
def lastSupplier (username : String) (log : UserLog) : Option UserMutation :=
  (log.filter (supplies username)).getLast?.map Prod.fst

section History

variable {log : UserLog} {username : String} {m : UserMutation}
  {entry : UserMutation × Except UserExn UserRecord}

theorem lastSupplier_of_supplies (supplied : supplies username entry = true) :
    lastSupplier username (log ++ [entry]) = some entry.1 := by
  unfold lastSupplier
  rw [List.filter_append, List.filter_singleton, supplied]
  simp

theorem lastSupplier_of_not_supplies (other : supplies username entry = false) :
    lastSupplier username (log ++ [entry]) = lastSupplier username log := by
  unfold lastSupplier
  rw [List.filter_append, List.filter_singleton, other]
  simp

end History

/-! ## What is stored -/

/-- The user's stored password is what the mutation makes of the one it supplies. -/
def StoresPassword (bcrypt : Bcrypt) (m : UserMutation) (user : User) : Prop :=
  ∃ password, m.password user.username = some password ∧
    if m.hashes then ∃ salt, user.password = bcrypt.hash password UserService.saltRounds salt
    else user.password = ""

/-- Every user's password is what the last supplier stored. -/
def PasswordsStored (bcrypt : Bcrypt) (log : UserLog) (T : Users) : Prop :=
  ∀ user ∈ T.rows, ∃ last, lastSupplier user.username log = some last ∧
    StoresPassword bcrypt last user

section Steps

variable {log : UserLog} {out : Except UserExn UserRecord}

/-- What the mutation says nothing about stays. -/
theorem PasswordsStored.frame {m : UserMutation} (stored : PasswordsStored bcrypt log T)
    (member : user ∈ T.rows) (other : supplies user.username (m, out) = false) :
    ∃ last, lastSupplier user.username (log ++ [(m, out)]) = some last ∧
      StoresPassword bcrypt last user := by
  rw [lastSupplier_of_not_supplies other]
  exact stored user member

theorem not_supplies {username : String} {m : UserMutation}
    (other : m.password username = none) : supplies username (m, out) = false := by
  unfold supplies
  rw [other, Option.isSome_none, Bool.and_false]

theorem supplies_of_password {username password : String} {m : UserMutation} {record : UserRecord}
    (supplied : m.password username = some password) :
    supplies username (m, .ok record) = true := by
  unfold supplies
  rw [supplied]
  rfl

theorem PasswordsStored.failed {m : UserMutation} (stored : PasswordsStored bcrypt log T)
    (failed : FailedIn T out T') : PasswordsStored bcrypt (log ++ [(m, out)]) T' := by
  obtain ⟨⟨e, rfl⟩, rfl⟩ := failed
  intro user member
  exact stored.frame member rfl

theorem PasswordsStored.createUser {input : CreateUserInput} (stored : PasswordsStored bcrypt log T)
    (run : Eval (userServer bcrypt).interp (UserMutation.handle (.createUser input)) T out T') :
    PasswordsStored bcrypt (log ++ [(.createUser input, out)]) T' := by
  rcases eval_createUser run with failed | ⟨row, salt, rfl, name, hashed, fresh, rows⟩
  · exact stored.failed failed
  · intro user member
    rw [rows] at member
    rcases List.mem_append.mp member with before | new
    · have other : input.username ≠ user.username := by
        intro same
        have found := Users.byUsername_of_mem before
        rw [← same, fresh] at found
        cases found
      exact stored.frame before (not_supplies (if_neg other))
    · cases List.mem_singleton.mp new
      have supplied : UserMutation.password row.username (.createUser input) =
          some input.password := if_pos name.symm
      exact ⟨_, lastSupplier_of_supplies (supplies_of_password supplied), input.password, supplied,
        salt, hashed⟩

theorem PasswordsStored.updateUser {username : String} {input : UpdateUserInput}
    (stored : PasswordsStored bcrypt log T)
    (run : Eval (userServer bcrypt).interp (UserMutation.handle (.updateUser username input)) T out
      T') :
    PasswordsStored bcrypt (log ++ [(.updateUser username input, out)]) T' := by
  rcases eval_updateUser run with failed | ⟨old, row, rfl, found, name, id, replaces, rows⟩
  · exact stored.failed failed
  · obtain ⟨oldMember, oldName⟩ := Users.of_byUsername found
    have present : T.rows.any (fun user => user.id = row.id) = true :=
      List.any_eq_true.mpr ⟨old, oldMember, decide_eq_true id.symm⟩
    unfold Users.put at rows
    rw [if_pos present] at rows
    intro user member
    rw [rows] at member
    obtain ⟨before, beforeMember, rfl⟩ := List.mem_map.mp member
    by_cases same : before.id = row.id
    · rw [if_pos same]
      have supplied : UserMutation.password row.username (.updateUser username input) =
          input.password.toOption := if_pos (by rw [name, oldName])
      rcases replaces with ⟨absent, kept⟩ | ⟨given, empty⟩ |
        ⟨password, salt, given, nonempty, hashed⟩
      · -- the last supplier stays, and so does what it stored
        rw [absent] at supplied
        rw [lastSupplier_of_not_supplies (not_supplies supplied)]
        obtain ⟨last, isLast, stores⟩ := stored old oldMember
        unfold StoresPassword at stores ⊢
        rw [name, kept]
        exact ⟨last, isLast, stores⟩
      · rw [given] at supplied
        refine ⟨_, lastSupplier_of_supplies (supplies_of_password supplied), "", supplied, ?_⟩
        simp [UserMutation.hashes, given, empty]
      · rw [given] at supplied
        refine ⟨_, lastSupplier_of_supplies (supplies_of_password supplied), password, supplied, ?_⟩
        simp only [UserMutation.hashes, given, ne_eq, Arg.given.injEq, nonempty, not_false_eq_true,
          decide_true, if_true]
        exact ⟨salt, hashed⟩
    · rw [if_neg same]
      have other : username ≠ before.username := by
        intro sameName
        refine same ?_
        rw [Users.eq_of_username beforeMember oldMember (sameName.symm.trans oldName.symm), id]
      exact stored.frame beforeMember (not_supplies (if_neg other))

/-- **Stored passwords.**  After every session, what is stored is what the last
supplier stored. -/
theorem stored_of_session (session : (userServer bcrypt).Session (fun _ _ => True) .empty log T) :
    PasswordsStored bcrypt log T := by
  refine Server.Session.preserves (PasswordsStored bcrypt) ?_ nofun session ?_
  · intro log T m out T' stored _ run
    cases m with
    | createUser input => exact stored.createUser run
    | updateUser username input => exact stored.updateUser run
  · intro user member
    cases member

end Steps

/-! ## Checking a password -/

/-- Run alone, the program returns `a` and changes nothing. -/
def Returns {α : Type} (bcrypt : Bcrypt) (T : Users) (program : Async userApi α) (a : α) : Prop :=
  ∀ out T', Eval (userInterp bcrypt) program T out T' ↔ out = .ok a ∧ T' = T

section Validating

variable {password : String}

/-- A call with one answer, which changes nothing, and a program that returns. -/
theorem Returns.await {α : Type} {call : UserCall} {k : Except UserExn call.Reply → Async userApi α}
    {r : Except UserExn call.Reply} {a : α}
    (only : ∀ {c r' T'}, (userInterp bcrypt).answer c call T = some (r', T') ↔
      c = .reply ∧ r' = r ∧ T' = T)
    (rest : Returns bcrypt T (k r) a) : Returns bcrypt T (.await call k) a := by
  intro out T'
  refine Eval.await_iff.trans ?_
  constructor
  · intro run
    obtain ⟨c, r', T₁, answered, run⟩ := run
    obtain ⟨-, same, after⟩ := only.mp answered
    rw [same, after] at run
    exact (rest out T').mp run
  · intro returned
    exact ⟨.reply, r, T, only.mpr ⟨rfl, rfl, rfl⟩, (rest out T').mpr returned⟩

/-- Comparing a password with the user's, and returning the user if it fits. -/
theorem returns_compare :
    Returns bcrypt T (UserService.compare password user.password >>= fun isPasswordValid =>
        if isPasswordValid then pure (some user.toUserRecord) else pure none)
      (if bcrypt.compare password user.password then some user.toUserRecord else none) := by
  refine Returns.await answer_compare ?_
  intro out T'
  cases bcrypt.compare password user.password with
  | true => exact Eval.pure_iff
  | false => exact Eval.pure_iff

theorem returns_validateUser (member : user ∈ T.rows) :
    Returns bcrypt T (UserService.validateUser user.username password)
      (if bcrypt.compare password user.password then some user.toUserRecord else none) := by
  refine Returns.await answer_findByUsername ?_
  rw [Users.byUsername_of_mem member]
  exact returns_compare

theorem returns_validateUser_byEmail (member : user ∈ T.rows) :
    Returns bcrypt T (AuthService.validateUser user.email password)
      (if bcrypt.compare password user.password then some user.toUserRecord else none) := by
  refine Returns.await answer_findByEmail ?_
  rw [Users.byEmail_of_mem member]
  exact returns_compare

theorem Bcrypt.compare_empty : bcrypt.compare password "" = false := by
  apply bcrypt.compare_other
  intro q rounds salt empty
  exact bcrypt.hash_ne_empty empty.symm

/-- Logging in gives a token for the user whose password fits, or is refused. -/
theorem eval_login {sign : (email sub : String) → String} (member : user ∈ T.rows)
    {out : Except UserExn LoginResponse} :
    Eval (userInterp bcrypt) (AuthService.login sign user.email password) T out T' ↔
      (out = if bcrypt.compare password user.password
        then .ok ⟨sign user.email user.id, user.toUserRecord⟩
        else .error (.unauthorized "Invalid credentials")) ∧ T' = T := by
  unfold AuthService.login
  rw [Eval.bind_iff]
  have returns : Returns bcrypt T (AuthService.validateUser user.email password) _ :=
    returns_validateUser_byEmail member
  simp only [returns _ _, reduceCtorEq, false_and, exists_false, or_false, Except.ok.injEq]
  cases fits : bcrypt.compare password user.password with
  | true => simp [Eval.pure_iff]
  | false => simp [Eval.throw_iff]

/-- What the last supplier stored fits its password, if it was hashed. -/
theorem StoresPassword.compare {m : UserMutation} {last : String}
    (stores : StoresPassword bcrypt m user) (supplied : m.password user.username = some last) :
    bcrypt.compare password user.password = (m.hashes && decide (password = last)) := by
  obtain ⟨password', supplied', stored⟩ := stores
  rw [supplied] at supplied'
  cases supplied'
  cases hashes : m.hashes with
  | true =>
    rw [hashes, if_pos rfl] at stored
    obtain ⟨salt, hashed⟩ := stored
    rw [hashed, bcrypt.compare_hash, Bool.true_and]
  | false =>
    rw [hashes, if_neg Bool.false_ne_true] at stored
    rw [stored, bcrypt.compare_empty, Bool.false_and]

end Validating

/-- Both checks return the user for the password `last` and nobody for any other. -/
def Follows (bcrypt : Bcrypt) (T : Users) (user : User) (last : String) : Prop :=
  ∀ password, ∃ result,
    Returns bcrypt T (AuthService.validateUser user.email password) result ∧
    Returns bcrypt T (UserService.validateUser user.username password) result ∧
    result = if password = last then some user.toUserRecord else none

/-- What a program returns is one value. -/
theorem Returns.unique {α : Type} {program : Async userApi α} {a b : α}
    (left : Returns bcrypt T program a) (right : Returns bcrypt T program b) : a = b := by
  have run := (left (.ok a) T).mpr ⟨rfl, rfl⟩
  have same := ((right (.ok a) T).mp run).1
  exact Except.ok.inj same

/-- **Login follows the last password.**  After every session, each user has a last
supplied password.  Both checks return the same for every password, and follow the
last one exactly if it was not the empty one given to `updateUser`. -/
theorem login_follows_last_password (bcrypt : Bcrypt) {log : UserLog} {T : Users}
    (session : (userServer bcrypt).Session (fun _ _ => True) .empty log T) {user : User}
    (member : user ∈ T.rows) :
    ∃ m last, lastSupplier user.username log = some m ∧
      m.password user.username = some last ∧
      (∀ password, ∃ result,
        Returns bcrypt T (AuthService.validateUser user.email password) result ∧
        Returns bcrypt T (UserService.validateUser user.username password) result) ∧
      (Follows bcrypt T user last ↔ m.hashes = true) := by
  obtain ⟨m, isLast, stores⟩ := stored_of_session session user member
  have stored := stores
  obtain ⟨last, supplied, -⟩ := stored
  refine ⟨m, last, isLast, supplied, ?_, ?_, ?_⟩
  · intro password
    exact ⟨_, returns_validateUser_byEmail member, returns_validateUser member⟩
  · intro follows
    obtain ⟨result, -, byName, same⟩ := follows last
    have returned := byName.unique (returns_validateUser member)
    rw [stores.compare supplied, same, if_pos rfl, decide_eq_true rfl, Bool.and_true] at returned
    by_contra unhashed
    rw [if_neg unhashed] at returned
    cases returned
  · intro hashes password
    refine ⟨_, returns_validateUser_byEmail member, returns_validateUser member, ?_⟩
    rw [stores.compare supplied, hashes, Bool.true_and]
    simp only [decide_eq_true_eq]

/-! ## Alice -/

/-- The version and the cost in front of a hash. -/
def hashHeader : List Char := "$2b$10$".toList

/-- A `bcrypt` that keeps the password after the salt. -/
def Bcrypt.transparent : Bcrypt where
  hash password _ salt := String.ofList (hashHeader ++ salt.toList ++ password.toList)
  compare password stored := stored.toList.take 7 == hashHeader &&
    decide (29 ≤ stored.toList.length) && stored.toList.drop 29 == password.toList
  compare_hash := by
    intro p q rounds salt
    have header : hashHeader.length = 7 := by decide
    have salted : (hashHeader ++ salt.toList).length = 29 := by simp [header]
    have long : 29 ≤ (hashHeader ++ salt.toList ++ q.toList).length := by
      rw [List.length_append, salted]
      omega
    rw [String.toList_ofList, List.drop_left' salted, decide_eq_true long, List.append_assoc,
      List.take_left' header, beq_self_eq_true, Bool.true_and, Bool.true_and, Bool.eq_iff_iff,
      beq_iff_eq, decide_eq_true_iff, String.toList_inj]
    exact eq_comm
  compare_other := by
    intro p stored other
    rw [Bool.eq_false_iff]
    intro fits
    simp only [Bool.and_eq_true, beq_iff_eq, decide_eq_true_eq] at fits
    obtain ⟨⟨header, long⟩, rest⟩ := fits
    have size : ((stored.toList.drop 7).take 22).toArray.size = 22 := by
      simp
      omega
    refine other p 10 ⟨_, size⟩ (String.toList_inj.mp ?_)
    have salted : (⟨_, size⟩ : Salt).toList = (stored.toList.drop 7).take 22 := rfl
    have middle : stored.toList.drop 29 = (stored.toList.drop 7).drop 22 := by
      rw [List.drop_drop]
    rw [String.toList_ofList, salted, ← header, ← rest, middle, List.append_assoc,
      List.take_append_drop, List.take_append_drop]
  hash_ne_empty := by
    intro p rounds salt empty
    have texts := congrArg String.toList empty
    rw [String.toList_ofList] at texts
    cases texts

/-- A clock that stands still, a salt, and an `id` for each name. -/
def pickForUsers : UserCall → Users → Option UserChoice
  | .hash _ _, _ => some (.salt (Vector.replicate 22 's'))
  | .save entity, _ => some (.generated entity.username 0)
  | _, _ => some .reply

/-- Alice registers. -/
def alice : UserMutation := .createUser ⟨"alice", "alice@example.com", "secret", .undefined⟩

/-- Alice's row with the given stored password. -/
def aliceWith (password : String) : User :=
  { id := "alice"
    username := "alice"
    email := "alice@example.com"
    role := .staff
    createdAt := 0
    updatedAt := 0
    password }

/-- Alice registers and gives herself another password. -/
def afterUpdate (password : String) : Option (List (Except UserExn UserRecord) × Users) :=
  (userServer .transparent).checkedRespond (fun _ _ => true) pickForUsers
    [alice, .updateUser "alice" ⟨.given password, .undefined⟩] .empty

theorem session_afterUpdate {password : String} {outs : List (Except UserExn UserRecord)}
    {T : Users} (served : afterUpdate password = some (outs, T)) :
    ∃ log, (userServer .transparent).Session (fun _ _ => True) .empty log T :=
  ⟨_, Server.Session.nil.append_respond (fun _ _ _ => trivial) served⟩

theorem login_after_update : ∃ (log : UserLog) (T : Users) (user : User) (m : UserMutation)
    (last : String), user ∈ T.rows ∧ lastSupplier user.username log = some m ∧
      m.password user.username = some last ∧
      (Follows .transparent T user last ↔ m.hashes = true) := by
  have served : ((afterUpdate "secret2").any fun r => decide (r.2.rows ≠ [])) = true := by
    decide +kernel
  obtain ⟨⟨outs, T⟩, served, rows⟩ := (Option.any_eq_true _ _).mp served
  obtain ⟨log, session⟩ := session_afterUpdate served
  obtain ⟨user, member⟩ := List.exists_mem_of_ne_nil _ (of_decide_eq_true rows)
  obtain ⟨m, last, isLast, supplied, -, follows⟩ :=
    login_follows_last_password .transparent session member
  exact ⟨log, T, user, m, last, member, isLast, supplied, follows⟩

/-- An empty password is stored as it is, and then no password fits. -/
theorem empty_password_locks_out :
    ¬ ∀ (bcrypt : Bcrypt) (log : UserLog) (T : Users) (user : User),
      (userServer bcrypt).Session (fun _ _ => True) .empty log T → user ∈ T.rows →
      ∃ m last, lastSupplier user.username log = some m ∧ m.password user.username = some last ∧
        Follows bcrypt T user last := by
  intro claim
  have served : ((afterUpdate "").any fun r => decide (r.2.rows = [aliceWith ""])) = true := by
    decide +kernel
  obtain ⟨⟨outs, T⟩, served, rows⟩ := (Option.any_eq_true _ _).mp served
  obtain ⟨log, session⟩ := session_afterUpdate served
  have member : aliceWith "" ∈ T.rows := by
    rw [of_decide_eq_true rows]
    exact List.mem_singleton_self _
  obtain ⟨m, last, -, -, follows⟩ := claim .transparent log T _ session member
  obtain ⟨result, -, byName, same⟩ := follows last
  have returned := byName.unique (returns_validateUser member)
  have misfit : Bcrypt.transparent.compare last (aliceWith "").password = false :=
    Bcrypt.compare_empty
  rw [same, if_pos rfl, misfit] at returned
  cases returned

end RestaurantAssistant
