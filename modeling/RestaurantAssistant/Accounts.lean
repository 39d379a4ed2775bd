import Mathlib.Data.List.Perm.Basic
import RestaurantAssistant.Async.Moments
import RestaurantAssistant.Login

/-!
# Accounts (`user.resolver.ts`, `auth.resolver.ts`, `jwt.strategy.ts`, `jwt-auth.guard.ts`)

Everything the users' side of the backend answers, in flight together: the mutations, the
listing of all users, logging in and logging out.  The shared state is the user table and
the clock.

Tokens are ideal (`Jwt`): a token says what it was signed for until it expires, and nothing
but a signed token is accepted.  The clock is read by a call of its own where the source
signs or verifies without awaiting, so that the model has more interleavings than the code.

Whatever is in flight, nobody loses the identity they have in the table, and what is stored
as a password was there at the start or was supplied for that user (`identities_persist`).
-/

namespace RestaurantAssistant

open Awaiting Js

/-! ## Tokens -/

/-- What a token is signed for. -/
structure JwtPayload where
  email : String
  sub : String
  deriving DecidableEq

/-- An ideal `JwtService` with its secret and its `expiresIn`.  Times are whole seconds. -/
structure Jwt where
  lifetime : Nat
  sign : JwtPayload → (now : Nat) → String
  verify : (token : String) → (now : Nat) → Option JwtPayload
  verify_sign {payload : JwtPayload} {issued now : Nat} :
    verify (sign payload issued) now = if now < issued + lifetime then some payload else none
  verify_other {token : String} {now : Nat}
    (other : ∀ payload issued, token ≠ sign payload issued) :
    verify token now = none

/-! ## The calls -/

inductive AccountCall
  | user (call : UserCall)
  | findById (id : String)
  | find
  | sign (payload : JwtPayload)
  | verify (token : String)
  deriving DecidableEq

@[reducible] def AccountCall.Reply : AccountCall → Type
  | .user call => call.Reply
  | .findById _ => Option User
  | .find => List User
  | .sign _ => String
  | .verify _ => Option JwtPayload

@[reducible] def accountApi : Signature := ⟨AccountCall, AccountCall.Reply, UserExn⟩

/-- The user table and the clock. -/
structure Accounts where
  users : Users
  now : Nat

def Users.byId (T : Users) (id : String) : Option User := T.rows.find? fun user => user.id = id

/-- What is left open in a call: what a user call leaves open, and the order in which the
database lists the rows. -/
inductive AccountChoice
  | user (choice : UserChoice)
  | listed (rows : List User)

/-- Outcome and effect of an awaited call. -/
def Accounts.answer (bcrypt : Bcrypt) (jwt : Jwt) :
    AccountChoice → (call : AccountCall) → Accounts →
    Option (Except UserExn call.Reply × Accounts)
  | .user c, .user call, s =>
    (s.users.answer bcrypt c call).map fun a => (a.1, { s with users := a.2 })
  | .user .reply, .findById id, s => some (.ok (s.users.byId id), s)
  | .listed rows, .find, s => if rows.isPerm s.users.rows then some (.ok rows, s) else none
  | .user .reply, .sign payload, s => some (.ok (jwt.sign payload s.now), s)
  | .user .reply, .verify token, s => some (.ok (jwt.verify token s.now), s)
  | _, _, _ => none

def accountInterp (bcrypt : Bcrypt) (jwt : Jwt) : Interp accountApi Accounts AccountChoice :=
  ⟨Accounts.answer bcrypt jwt⟩

/-- The calls of the database and of `bcrypt` may be rejected. -/
def AccountCall.mayFail : AccountCall → Bool
  | .user _ => true
  | .findById _ => true
  | .find => true
  | .sign _ => false
  | .verify _ => false

/-- The call that changes the table. -/
def AccountCall.saves : AccountCall → Bool
  | .user (.save _) => true
  | _ => false

/-! ## The resolvers -/

/-- A program of the user services among the other calls. -/
def asAccount {α : Type} : Async userApi α → Async accountApi α
  | .pure a => .pure a
  | .throw e => .throw e
  | .diverge => .diverge
  | .await call k => .await (.user call) fun r => asAccount (k r)

namespace UserService

@[simp] def findById (id : String) : Async accountApi (Option User) :=
  Async.call (σ := accountApi) (.findById id)

/-- All users, without their passwords. -/
def findAll : Async accountApi (List UserRecord) := do
  let users ← Async.call (σ := accountApi) .find
  pure (users.map fun user => user.toUserRecord)

end UserService

/-- The user a verified token stands for. -/
def JwtStrategy.validate (payload : JwtPayload) : Async accountApi UserRecord := do
  match ← UserService.findById payload.sub with
  | none => .throw (.unauthorized "Unauthorized" : UserExn)
  | some user => pure user.toUserRecord

/-- Let a request pass if its bearer token verifies and stands for a user. -/
def JwtAuthGuard.canActivate (token : Option String) : Async accountApi UserRecord := do
  match token with
  | none => .throw (.unauthorized "Unauthorized" : UserExn)
  | some token =>
    match ← Async.call (σ := accountApi) (.verify token) with
    | none => .throw (.unauthorized "Unauthorized" : UserExn)
    | some payload => JwtStrategy.validate payload

structure LoginInput where
  email : String
  password : String
  deriving DecidableEq

namespace AuthService

/-- Nothing is kept about a token, so there is nothing to do. -/
def logout (_currentUser : UserRecord) : Async accountApi Bool := pure true

end AuthService

namespace AuthResolver

/-- `AuthService.login`, with the time of the signing. -/
def login (input : LoginInput) : Async accountApi LoginResponse := do
  match ← asAccount (AuthService.validateUser input.email input.password) with
  | none => .throw (.unauthorized "Invalid credentials" : UserExn)
  | some user =>
    let accessToken ← Async.call (σ := accountApi) (.sign ⟨user.email, user.id⟩)
    pure ⟨accessToken, user⟩

def logout (token : Option String) : Async accountApi Bool := do
  let currentUser ← JwtAuthGuard.canActivate token
  AuthService.logout currentUser

end AuthResolver

/-! ## Requests -/

inductive AccountRequest
  | mutation (m : UserMutation)
  | users
  | login (input : LoginInput)
  | logout (token : Option String)
  deriving DecidableEq

inductive AccountResponse
  | saved (user : UserRecord)
  | listed (users : List UserRecord)
  | loggedIn (response : LoginResponse)
  | loggedOut (done : Bool)
  deriving DecidableEq

def AccountRequest.handle : AccountRequest → Async accountApi AccountResponse
  | .mutation m => .saved <$> asAccount m.handle
  | .users => .listed <$> UserService.findAll
  | .login input => .loggedIn <$> AuthResolver.login input
  | .logout token => .loggedOut <$> AuthResolver.logout token

/-- The environment lets seconds pass. -/
def accountServer (bcrypt : Bcrypt) (jwt : Jwt) :
    Server accountApi AccountRequest Accounts (Option AccountChoice) Nat AccountResponse where
  interp := (accountInterp bcrypt jwt).failing AccountCall.mayFail .rejected
  handle := AccountRequest.handle
  env seconds s := { s with now := s.now + seconds }

/-! ## What the calls do -/

section Calls

variable {bcrypt : Bcrypt} {jwt : Jwt} {s s' : Accounts} {c : Option AccountChoice}

/-- A user call is rejected, or answered by the table. -/
theorem answer_user {call : UserCall} {r : Except UserExn call.Reply}
    (answered : (accountServer bcrypt jwt).interp.answer c (.user call) s = some (r, s')) :
    (r = .error .rejected ∧ s' = s) ∨ ∃ c', c = some (.user c') ∧
      (userInterp bcrypt).answer c' call s.users = some (r, s'.users) ∧ s'.now = s.now := by
  rcases c with _ | c | rows
  · cases answered
    exact .inl ⟨rfl, rfl⟩
  · obtain ⟨⟨r', T⟩, inTable, same⟩ := Option.map_eq_some_iff.mp answered
    cases same
    exact .inr ⟨c, rfl, inTable, rfl⟩
  · cases answered

/-- Only saving changes anything. -/
theorem unchanged_of_answer {call : AccountCall} {r : Except UserExn call.Reply}
    (other : call.saves = false)
    (answered : (accountServer bcrypt jwt).interp.answer c call s = some (r, s')) : s' = s := by
  cases call with
  | user call =>
    rcases answer_user answered with ⟨-, same⟩ | ⟨c', -, inTable, clock⟩
    · exact same
    · have table : s'.users = s.users := by
        cases call with
        | findByUsername username => exact (answer_findByUsername.mp inTable).2.2
        | findByEmail email => exact (answer_findByEmail.mp inTable).2.2
        | compare password stored => exact (answer_compare.mp inTable).2.2
        | hash password rounds =>
          obtain ⟨salt, -, -, same⟩ := answer_hash.mp inTable
          exact same
        | save entity => cases other
      cases s
      cases s'
      cases table
      cases clock
      rfl
  | findById id =>
    rcases c with _ | (_ | _ | _) | _ <;> cases answered
    · rfl
    · rfl
  | find =>
    rcases c with _ | c | rows
    · cases answered
      rfl
    · cases answered
    · obtain ⟨-, same⟩ := Option.ite_none_right_eq_some.mp answered
      cases same
      rfl
  | sign payload =>
    rcases c with _ | (_ | _ | _) | _ <;> cases answered
    rfl
  | verify token =>
    rcases c with _ | (_ | _ | _) | _ <;> cases answered
    rfl

theorem answer_findById {id : String} {r : Except UserExn (Option User)}
    (answered : (accountServer bcrypt jwt).interp.answer c (.findById id) s = some (r, s')) :
    r = .error .rejected ∨ r = .ok (s.users.byId id) := by
  rcases c with _ | (_ | _ | _) | _ <;> cases answered
  · exact .inl rfl
  · exact .inr rfl

theorem answer_sign {payload : JwtPayload} {r : Except UserExn String}
    (answered : (accountServer bcrypt jwt).interp.answer c (.sign payload) s = some (r, s')) :
    r = .ok (jwt.sign payload s.now) := by
  rcases c with _ | (_ | _ | _) | _ <;> cases answered
  rfl

theorem answer_verify {token : String} {r : Except UserExn (Option JwtPayload)}
    (answered : (accountServer bcrypt jwt).interp.answer c (.verify token) s = some (r, s')) :
    r = .ok (jwt.verify token s.now) := by
  rcases c with _ | (_ | _ | _) | _ <;> cases answered
  rfl

/-- Saving an entity changes nothing, or writes a row with the entity's columns. -/
theorem save_cases {T T' : Users} {entity : UserDraft} {id : String} {now : Int}
    {r : Except UserExn User} (saved : T.save id now entity = (r, T')) :
    r = .error .rejected ∧ T' = T ∨ ∃ row : User, r = .ok row ∧ row.id = entity.id.getD id ∧
      row.username = entity.username ∧ row.email = entity.email ∧
      row.createdAt = entity.createdAt.getD now ∧ entity.password = some row.password ∧
      T'.rows = if entity.id.isSome then T.put row else T.rows ++ [row] := by
  unfold Users.save at saved
  split at saved
  · rename_i password role given _
    simp only at saved
    split at saved
    · rename_i T'' built
      cases saved
      exact .inr ⟨_, rfl, rfl, rfl, rfl, rfl, given, Users.rows_of_ofRows built⟩
    · cases saved
      exact .inl ⟨rfl, rfl⟩
  · cases saved
    exact .inl ⟨rfl, rfl⟩

theorem answer_save_cases {entity : UserDraft} {r : Except UserExn User}
    (answered : (accountServer bcrypt jwt).interp.answer c (.user (.save entity)) s =
      some (r, s')) :
    r = .error .rejected ∧ s' = s ∨ ∃ id now, s.users.save id now entity = (r, s'.users) := by
  rcases answer_user answered with failed | ⟨c', -, inTable, -⟩
  · exact .inl failed
  · rcases c' with _ | salt | ⟨id, now⟩
    · cases inTable
    · cases inTable
    · exact .inr ⟨id, now, Option.some.inj inTable⟩

end Calls

/-! ## Identities -/

/-- What a row keeps for good. -/
structure Identity where
  id : String
  username : String
  email : String
  createdAt : Int
  deriving DecidableEq

def User.identity (user : User) : Identity := ⟨user.id, user.username, user.email, user.createdAt⟩

/-- Everybody in the first table has the same identity in the second one. -/
def Persists (T T' : Users) : Prop :=
  T.rows.map (fun user => user.identity) ⊆ T'.rows.map fun user => user.identity

namespace Persists

variable {T T' T'' : Users} {user row : User}

theorem refl : Persists T T := fun _ member => member

theorem trans (first : Persists T T') (second : Persists T' T'') : Persists T T'' :=
  List.Subset.trans first second

theorem exists_mem (persists : Persists T T') (member : user ∈ T.rows) :
    ∃ user' ∈ T'.rows, user'.identity = user.identity :=
  List.mem_map.mp (persists (List.mem_map_of_mem member))

theorem append (appended : T'.rows = T.rows ++ [row]) : Persists T T' := by
  intro identity member
  rw [appended, List.map_append]
  exact List.mem_append_left _ member

/-- Rewriting a row under its identity. -/
theorem put (known : ∃ old ∈ T.rows, old.identity = row.identity)
    (rewritten : T'.rows = T.put row) :
    Persists T T' ∧ ∀ user ∈ T'.rows, user = row ∨ user ∈ T.rows := by
  obtain ⟨old, member, same⟩ := known
  have sameId : old.id = row.id := congrArg Identity.id same
  have present : T.rows.any (fun user => user.id = row.id) = true :=
    List.any_eq_true.mpr ⟨old, member, decide_eq_true sameId⟩
  unfold Users.put at rewritten
  rw [if_pos present] at rewritten
  refine ⟨?_, ?_⟩
  · intro identity known
    obtain ⟨user, userMember, rfl⟩ := List.mem_map.mp known
    rw [rewritten]
    by_cases rewrites : user.id = row.id
    · -- ids are unique, so that this row is the old one
      have sameUser : user = old :=
        List.inj_on_of_nodup_map T.ids userMember member (rewrites.trans sameId.symm)
      refine List.mem_map.mpr ⟨row, List.mem_map.mpr ⟨user, userMember, if_pos rewrites⟩, ?_⟩
      rw [sameUser, same]
    · exact List.mem_map.mpr ⟨user, List.mem_map.mpr ⟨user, userMember, if_neg rewrites⟩, rfl⟩
  · intro user member'
    rw [rewritten] at member'
    obtain ⟨before, beforeMember, rfl⟩ := List.mem_map.mp member'
    by_cases rewrites : before.id = row.id
    · exact .inl (if_pos rewrites)
    · rw [if_neg rewrites]
      exact .inr beforeMember

end Persists

/-! ## What the mutations save -/

/-- The entity a mutation saves, given the row it has read. -/
inductive Prepares (bcrypt : Bcrypt) : UserMutation → Option User → UserDraft → Prop
  | createUser {input : CreateUserInput} (salt : Salt) :
    Prepares bcrypt (.createUser input) none
      { id := none
        username := input.username
        email := input.email
        password := some (bcrypt.hash input.password UserService.saltRounds salt)
        role := input.role.assign "staff"
        createdAt := none }
  | hashed {username password : String} {input : UpdateUserInput} {old : User} (salt : Salt) :
    old.username = username → input.password.text = some password →
    Prepares bcrypt (.updateUser username input) (some old) (UserService.assign old
      { input with password := .given (bcrypt.hash password UserService.saltRounds salt) })
  | unhashed {username : String} {input : UpdateUserInput} {old : User} :
    old.username = username → input.password.text = none →
    Prepares bcrypt (.updateUser username input) (some old) (UserService.assign old input)

/-- The row a step has read for a mutation. -/
def readRow : AccountCall × Accounts → Option User
  | (.user (.findByUsername username), s) => s.users.byUsername username
  | _ => none

/-- Save an entity and return it without its password. -/
def saving (entity : UserDraft) : Async accountApi AccountResponse :=
  .saved <$> asAccount (UserService.save entity >>= fun savedUser => pure savedUser.toUserRecord)

/-- What a mutation has returned. -/
def savedRecord : Async accountApi AccountResponse → Option UserRecord
  | .pure (.saved record) => some record
  | _ => none

/-- If the request is about to save an entity, it is a mutation that has prepared it from
the row it has read; and it returns a saved user right after saving. -/
structure Drafts (bcrypt : Bcrypt) (request : AccountRequest) (h : History accountApi Accounts)
    (p : Async accountApi AccountResponse) : Prop where
  saves : ∀ entity, p.next? = some (.user (.save entity)) → p = saving entity ∧
    ∃ m, request = .mutation m ∧ Prepares bcrypt m (h.filterMap readRow).head? entity
  saved : (savedRecord p).isSome → ∃ step ∈ h.head?, step.1.saves = true

section Programs

variable {bcrypt : Bcrypt} {jwt : Jwt} {request : AccountRequest} {h : History accountApi Accounts}
  {inv : History accountApi Accounts → Async accountApi AccountResponse → Prop}

/-- An await of a user call: it is rejected, or answered by the table. -/
theorem always_user {call : UserCall}
    {k : Except UserExn call.Reply → Async accountApi AccountResponse}
    (here : inv h (.await (.user call) k))
    (rejected : ∀ s, (k (.error .rejected)).Always (accountServer bcrypt jwt).interp inv
      ((.user call, s) :: h))
    (answers : ∀ c s r T, (userInterp bcrypt).answer c call s.users = some (r, T) →
      (k r).Always (accountServer bcrypt jwt).interp inv ((.user call, s) :: h)) :
    (Async.await (.user call) k : Async accountApi AccountResponse).Always
      (accountServer bcrypt jwt).interp inv h := by
  refine ⟨here, fun c s r s' answered => ?_⟩
  rcases answer_user answered with ⟨rfl, -⟩ | ⟨c', -, inTable, -⟩
  · exact rejected s
  · exact answers c' s r s'.users inTable

theorem Drafts.awaits {call : AccountCall}
    {k : Except UserExn call.Reply → Async accountApi AccountResponse}
    (other : call.saves = false) : Drafts bcrypt request h (.await call k) := by
  refine ⟨fun entity saves => ?_, fun saved => by cases saved⟩
  rw [Option.some.inj saves] at other
  cases other

theorem Drafts.finished {p : Async accountApi AccountResponse} (done : p.next? = none)
    (unsaved : savedRecord p = none) : Drafts bcrypt request h p := by
  refine ⟨fun entity saves => ?_, fun saved => ?_⟩
  · rw [done] at saves
    cases saves
  · rw [unsaved] at saved
    cases saved

/-- Saving what has been prepared, and returning it without its password. -/
theorem drafts_save {m : UserMutation} {entity : UserDraft}
    (prepared : Prepares bcrypt m (h.filterMap readRow).head? entity) :
    (saving entity).Always (accountServer bcrypt jwt).interp (Drafts bcrypt (.mutation m)) h := by
  refine always_user ⟨fun entity' saves => ?_, fun saved => by cases saved⟩
    (fun s => Drafts.finished rfl rfl) fun c s r T answered => ?_
  · cases saves
    exact ⟨rfl, m, rfl, prepared⟩
  · cases r with
    | ok row =>
      refine ⟨fun entity' saves => ?_, fun _ => ⟨_, rfl, rfl⟩⟩
      cases saves
    | error e => exact Drafts.finished rfl rfl

theorem drafts_createUser (input : CreateUserInput) :
    (AccountRequest.handle (.mutation (.createUser input))).Always (accountServer bcrypt jwt).interp
      (Drafts bcrypt (.mutation (.createUser input))) [] := by
  refine always_user (Drafts.awaits rfl) (fun s => Drafts.finished rfl rfl)
    fun c s r T answered => ?_
  obtain ⟨-, rfl, -⟩ := answer_findByUsername.mp answered
  cases byName : s.users.byUsername input.username with
  | some user => exact Drafts.finished rfl rfl
  | none =>
    refine always_user (Drafts.awaits rfl) (fun s => Drafts.finished rfl rfl)
      fun c s' r T answered => ?_
    obtain ⟨-, rfl, -⟩ := answer_findByEmail.mp answered
    cases s'.users.byEmail input.email with
    | some user => exact Drafts.finished rfl rfl
    | none =>
      refine always_user (Drafts.awaits rfl) (fun s => Drafts.finished rfl rfl)
        fun c s'' r T answered => ?_
      obtain ⟨salt, -, rfl, -⟩ := answer_hash.mp answered
      refine drafts_save ?_
      have unread : ([(.user (.hash input.password UserService.saltRounds), s''),
          (.user (.findByEmail input.email), s'), (.user (.findByUsername input.username), s)] :
          History accountApi Accounts).filterMap readRow = [] := by
        simp [readRow, byName]
      rw [unread]
      exact .createUser salt

theorem drafts_updateUser (username : String) (input : UpdateUserInput) :
    (AccountRequest.handle (.mutation (.updateUser username input))).Always
      (accountServer bcrypt jwt).interp
      (Drafts bcrypt (.mutation (.updateUser username input))) [] := by
  refine always_user (Drafts.awaits rfl) (fun s => Drafts.finished rfl rfl)
    fun c s r T answered => ?_
  obtain ⟨-, rfl, -⟩ := answer_findByUsername.mp answered
  cases byName : s.users.byUsername username with
  | none => exact Drafts.finished rfl rfl
  | some old =>
    have named : old.username = username := (Users.of_byUsername byName).2
    cases truthy : input.password.text with
    | some password =>
      refine always_user (Drafts.awaits rfl) (fun s => Drafts.finished rfl rfl)
        fun c s' r T answered => ?_
      obtain ⟨salt, -, rfl, -⟩ := answer_hash.mp answered
      refine drafts_save ?_
      simp only [List.filterMap_cons, readRow, byName, List.head?_cons]
      exact .hashed salt named truthy
    | none =>
      refine drafts_save ?_
      simp only [List.filterMap_cons, readRow, byName, List.head?_cons]
      exact .unhashed named truthy

/-- No other request saves anything. -/
theorem drafts_of_request (request : AccountRequest) :
    request.handle.Always (accountServer bcrypt jwt).interp (Drafts bcrypt request) [] := by
  cases request with
  | mutation m =>
    cases m with
    | createUser input => exact drafts_createUser input
    | updateUser username input => exact drafts_updateUser username input
  | users =>
    refine ⟨Drafts.awaits rfl, fun c s r s' _ => ?_⟩
    cases r <;> exact Drafts.finished rfl rfl
  | login input =>
    refine always_user (Drafts.awaits rfl) (fun s => Drafts.finished rfl rfl)
      fun c s r T answered => ?_
    obtain ⟨-, rfl, -⟩ := answer_findByEmail.mp answered
    cases s.users.byEmail input.email with
    | none => exact Drafts.finished rfl rfl
    | some user =>
      refine always_user (Drafts.awaits rfl) (fun s => Drafts.finished rfl rfl)
        fun c s r T answered => ?_
      obtain ⟨-, rfl, -⟩ := answer_compare.mp answered
      cases bcrypt.compare input.password user.password with
      | false => exact Drafts.finished rfl rfl
      | true =>
        refine ⟨Drafts.awaits rfl, fun c s r s' _ => ?_⟩
        cases r <;> exact Drafts.finished rfl rfl
  | logout token =>
    cases token with
    | none => exact Drafts.finished rfl rfl
    | some token =>
      refine ⟨Drafts.awaits rfl, fun c s r s' answered => ?_⟩
      rw [answer_verify answered]
      cases jwt.verify token s.now with
      | none => exact Drafts.finished rfl rfl
      | some payload =>
        refine ⟨Drafts.awaits rfl, fun c s r s' answered => ?_⟩
        rcases answer_findById answered with rfl | rfl
        · exact Drafts.finished rfl rfl
        · cases s.users.byId payload.sub <;> exact Drafts.finished rfl rfl

end Programs

/-! ## Where a row comes from -/

/-- Somebody of the first table, or registered since; and the password is theirs from then, or
was supplied for them since.  `arrived` are the requests. -/
structure Vouched (bcrypt : Bcrypt) (T : Users) (arrived : AccountRequest → Prop) (user : User) :
    Prop where
  registered : (∃ old ∈ T.rows, old.identity = user.identity) ∨
    ∃ input : CreateUserInput, arrived (.mutation (.createUser input)) ∧
      input.username = user.username ∧ input.email = user.email
  supplied : (∃ old ∈ T.rows, old.identity = user.identity ∧ old.password = user.password) ∨
    ∃ m, arrived (.mutation m) ∧ StoresPassword bcrypt m user

section Origins

variable {bcrypt : Bcrypt} {jwt : Jwt} {T : Users} {arrived : AccountRequest → Prop}
  {old row : User} {entity : UserDraft} {m : UserMutation}

/-- An entity prepared from a row keeps its identity and replaces its password as told. -/
theorem Prepares.of_read (prepared : Prepares bcrypt m (some old) entity) :
    entity.id = some old.id ∧ entity.username = old.username ∧ entity.email = old.email ∧
      entity.createdAt = some old.createdAt ∧ ∃ input, m = .updateUser old.username input ∧
        ∀ stored, entity.password = some stored →
          Replaces bcrypt old.password input.password stored := by
  cases prepared with
  | hashed salt named truthy =>
    cases named
    obtain ⟨given, nonempty⟩ := Arg.text_eq_some.mp truthy
    refine ⟨rfl, rfl, rfl, rfl, _, rfl, fun stored same => ?_⟩
    exact .inr (.inr ⟨_, salt, given, nonempty, (Option.some.inj same).symm⟩)
  | unhashed named falsy =>
    cases named
    exact ⟨rfl, rfl, rfl, rfl, _, rfl, fun stored same => replaces_of_falsy falsy same⟩

/-- A password the update gives is stored as that update stores it. -/
theorem Replaces.kept_or_stored {input : UpdateUserInput} {username : String}
    (replaces : Replaces bcrypt old.password input.password row.password)
    (named : row.username = username) :
    row.password = old.password ∨ StoresPassword bcrypt (.updateUser username input) row := by
  have supplied : UserMutation.password row.username (.updateUser username input) =
      input.password.toOption := if_pos named.symm
  rcases replaces with ⟨-, kept⟩ | ⟨given, empty⟩ | ⟨password, salt, given, nonempty, hashed⟩
  · exact .inl kept
  · rw [given] at supplied
    refine .inr ⟨"", supplied, ?_⟩
    simp [UserMutation.hashes, given, empty]
  · rw [given] at supplied
    refine .inr ⟨password, supplied, ?_⟩
    simp only [UserMutation.hashes, given, ne_eq, Arg.given.injEq, nonempty, not_false_eq_true,
      decide_true, if_true]
    exact ⟨salt, hashed⟩

/-- A row that an update rewrites is vouched for if the row it has read is. -/
theorem Vouched.update {input : UpdateUserInput} (vouched : Vouched bcrypt T arrived old)
    (same : row.identity = old.identity)
    (request : arrived (.mutation (.updateUser old.username input)))
    (replaces : Replaces bcrypt old.password input.password row.password) :
    Vouched bcrypt T arrived row := by
  have name : row.username = old.username := congrArg Identity.username same
  have email : row.email = old.email := congrArg Identity.email same
  refine ⟨?_, ?_⟩
  · rw [same, name, email]
    exact vouched.registered
  · rcases replaces.kept_or_stored name with kept | stores
    · rw [same, kept]
      rcases vouched.supplied with initial | ⟨m, arrival, stored⟩
      · exact .inl initial
      · refine .inr ⟨m, arrival, ?_⟩
        unfold StoresPassword at stored ⊢
        rw [name, kept]
        exact stored
    · exact .inr ⟨_, request, stores⟩

theorem Vouched.create {input : CreateUserInput} {salt : Salt}
    (request : arrived (.mutation (.createUser input))) (name : row.username = input.username)
    (email : row.email = input.email)
    (hashed : row.password = bcrypt.hash input.password UserService.saltRounds salt) :
    Vouched bcrypt T arrived row := by
  refine ⟨.inr ⟨input, request, name.symm, email.symm⟩, .inr ⟨_, request, input.password, ?_, ?_⟩⟩
  · exact if_pos name.symm
  · exact ⟨salt, hashed⟩

/-- Every row of the table is vouched for. -/
def AllVouched (bcrypt : Bcrypt) (T : Users) (arrived : AccountRequest → Prop) (s : Accounts) :
    Prop :=
  ∀ user ∈ s.users.rows, Vouched bcrypt T arrived user

/-- From then to now: every row was vouched for, and everybody is still there. -/
def Continues (bcrypt : Bcrypt) (T : Users) (arrived : AccountRequest → Prop) (s s' : Accounts) :
    Prop :=
  AllVouched bcrypt T arrived s ∧ Persists s.users s'.users

/-- What a call of a request does, if the request's past is vouched for. -/
theorem continues_of_answer {request : AccountRequest} {h : History accountApi Accounts}
    {call : AccountCall} {k : Except UserExn call.Reply → Async accountApi AccountResponse}
    {c : Option AccountChoice} {r : Except UserExn call.Reply} {s s' : Accounts}
    (answered : (accountServer bcrypt jwt).interp.answer c call s = some (r, s'))
    (arrival : arrived request) (drafts : Drafts bcrypt request h (.await call k))
    (past : ∀ step ∈ h, Continues bcrypt T arrived step.2 s)
    (vouched : AllVouched bcrypt T arrived s) :
    AllVouched bcrypt T arrived s' ∧ Persists s.users s'.users := by
  cases saves : call.saves with
  | false =>
    rw [unchanged_of_answer saves answered]
    exact ⟨vouched, .refl⟩
  | true =>
    rcases call with (_ | _ | entity | _ | _) | _ | _ | _ | _ <;> try cases saves
    rcases answer_save_cases answered with ⟨-, same⟩ | ⟨id, now, saved⟩
    · rw [same]
      exact ⟨vouched, .refl⟩
    rcases save_cases saved with ⟨-, same⟩ | ⟨row, -, rowId, name, email, created, stored, rows⟩
    · unfold AllVouched
      rw [same]
      exact ⟨vouched, .refl⟩
    obtain ⟨-, m, rfl, prepared⟩ := drafts.saves entity rfl
    cases read : (h.filterMap readRow).head? with
    | none =>
      rw [read] at prepared
      cases prepared with
      | createUser salt =>
        refine ⟨?_, .append rows⟩
        intro user member
        rw [rows] at member
        rcases List.mem_append.mp member with before | new
        · exact vouched user before
        · cases List.mem_singleton.mp new
          exact .create arrival name email (Option.some.inj stored).symm
    | some old =>
      rw [read] at prepared
      obtain ⟨known, name', email', created', input, rfl, replaces⟩ := prepared.of_read
      -- the row that was read has been there, and its identity still is
      obtain ⟨⟨call, then_⟩, step, readOld⟩ := List.mem_filterMap.mp (List.mem_of_head? read)
      have oldMember : old ∈ then_.users.rows := by
        rcases call with (_ | _ | _ | _ | _) | _ | _ | _ | _ <;> try cases readOld
        exact (Users.of_byUsername readOld).1
      obtain ⟨wasVouched, persists⟩ := past _ step
      obtain ⟨current, currentMember, sameIdentity⟩ := persists.exists_mem oldMember
      have rowIdentity : row.identity = old.identity := by
        unfold User.identity
        rw [rowId, name, email, created, known, name', email', created']
        rfl
      rw [known, Option.isSome_some, if_pos rfl] at rows
      obtain ⟨stays, members⟩ :=
        Persists.put ⟨current, currentMember, sameIdentity.trans rowIdentity.symm⟩ rows
      refine ⟨?_, stays⟩
      intro user member
      rcases members user member with rfl | before
      · exact (wasVouched old oldMember).update rowIdentity arrival (replaces _ stored)
      · exact vouched user before

end Origins

/-! ## Runs -/

/-- A pool whose requests have arrived and save what they have prepared, and whose past and
present are vouched for. -/
structure Orderly (bcrypt : Bcrypt) (jwt : Jwt) (T : Users) (arrived : AccountRequest → Prop)
    (P : Pool accountApi AccountRequest Accounts AccountResponse) : Prop where
  always : P.Always (fun request h p => arrived request ∧ Drafts bcrypt request h p)
    (accountServer bcrypt jwt).interp
  since : P.Since (Continues bcrypt T arrived)
  vouched : AllVouched bcrypt T arrived P.shared

section Runs

variable {bcrypt : Bcrypt} {jwt : Jwt} {T : Users} {arrived : AccountRequest → Prop}
  {P P' : Pool accountApi AccountRequest Accounts AccountResponse}
  {e : Event AccountRequest (Option AccountChoice) Nat}
  {es : List (Event AccountRequest (Option AccountChoice) Nat)}

/-- The requests of the events. -/
def Arrives (es : List (Event AccountRequest (Option AccountChoice) Nat))
    (request : AccountRequest) :
    Prop :=
  .arrive request ∈ es

theorem orderly_start {s : Accounts} : Orderly bcrypt jwt s.users arrived ⟨s, []⟩ := by
  refine ⟨Pool.always_nil _, Pool.since_nil, ?_⟩
  intro user member
  exact ⟨.inl ⟨user, member, rfl⟩, .inl ⟨user, member, rfl, rfl⟩⟩

theorem fire_orderly (arrivals : ∀ request, e = .arrive request → arrived request)
    (fired : (accountServer bcrypt jwt).fire e P = some P')
    (orderly : Orderly bcrypt jwt T arrived P) :
    Orderly bcrypt jwt T arrived P' ∧ Persists P.shared.users P'.shared.users := by
  have shared : AllVouched bcrypt T arrived P'.shared ∧
      Persists P.shared.users P'.shared.users := by
    rcases Server.fire_cases fired with ⟨r, -, rfl⟩ |
      ⟨i, c, proc, call, k, r, s', -, found, suspended, answered, rfl⟩ | ⟨x, -, rfl⟩
    · exact ⟨orderly.vouched, .refl⟩
    · have member := List.mem_of_getElem? found
      have always := orderly.always proc member
      rw [suspended] at always
      exact continues_of_answer answered always.here.1 always.here.2 (orderly.since proc member)
        orderly.vouched
    · exact ⟨orderly.vouched, .refl⟩
  refine ⟨⟨?_, ?_, shared.1⟩, shared.2⟩
  · refine Server.fire_always _ (fun request arrives => ?_) fired orderly.always
    refine Async.Always.mono (fun h p drafts => ⟨arrivals request arrives, drafts⟩) ?_
    exact drafts_of_request request
  · refine Server.fire_since fired ⟨orderly.vouched, shared.2⟩ (fun s then_ => ?_) orderly.since
    exact ⟨then_.1, then_.2.trans shared.2⟩

theorem run_orderly (arrived : AccountRequest → Prop)
    (arrivals : ∀ request, Arrives es request → arrived request)
    (ran : (accountServer bcrypt jwt).run es P = some P')
    (orderly : Orderly bcrypt jwt T arrived P) :
    Orderly bcrypt jwt T arrived P' ∧ Persists P.shared.users P'.shared.users := by
  have along : (accountServer bcrypt jwt).Along
      (fun _ e => ∀ request, e = .arrive request → arrived request) es P := by
    refine Server.Along.of_forall fun e member Q request same => ?_
    rw [same] at member
    exact arrivals request member
  refine Server.run_preserves (fun Q => Orderly bcrypt jwt T arrived Q ∧
    Persists P.shared.users Q.shared.users) ?_ ran along ⟨orderly, .refl⟩
  intro Q e Q' held here fired
  obtain ⟨orderly', stays⟩ := fire_orderly here fired held.1
  exact ⟨orderly', held.2.trans stays⟩

/-- **Identities persist.**  In every interleaving of the users' requests, with any calls
rejected, everybody in the table at one moment is there at every later one under the same
id, name, address and date; and everybody in the table was there at the start or has been
registered, with a password from the start or supplied for them. -/
theorem identities_persist (bcrypt : Bcrypt) (jwt : Jwt) {s : Accounts}
    {es es' : List (Event AccountRequest (Option AccountChoice) Nat)}
    {P P' : Pool accountApi AccountRequest Accounts AccountResponse}
    (ran : (accountServer bcrypt jwt).run es ⟨s, []⟩ = some P)
    (later : (accountServer bcrypt jwt).run es' P = some P') :
    Persists P.shared.users P'.shared.users ∧
      ∀ user ∈ P'.shared.users.rows, Vouched bcrypt s.users (Arrives (es ++ es')) user := by
  obtain ⟨orderly, -⟩ := run_orderly (Arrives (es ++ es'))
    (fun request arrives => List.mem_append_left es' arrives) ran orderly_start
  obtain ⟨orderly', stays⟩ :=
    run_orderly _ (fun request arrives => List.mem_append_right es arrives) later orderly
  exact ⟨stays, orderly'.vouched⟩

end Runs

/-! ## An update that loses another -/

/-- How many ones the text starts with. -/
def countOnes (text : List Char) : Nat := (text.takeWhile fun c => c = '1').length

theorem countOnes_replicate (n : Nat) (rest : List Char) :
    countOnes (List.replicate n '1' ++ '.' :: rest) = n := by
  unfold countOnes
  rw [List.takeWhile_append_of_pos (by simp)]
  simp

/-- A token without a secret: the address after its length, the time in ones, the `id`. -/
def transparentToken (payload : JwtPayload) (issued : Nat) : List Char :=
  List.replicate payload.email.toList.length '1' ++ '.' ::
    (payload.email.toList ++ (List.replicate issued '1' ++ '.' :: payload.sub.toList))

/-- Payload and time of such a token. -/
def readTransparent (token : List Char) : JwtPayload × Nat :=
  let length := countOnes token
  let text := token.drop (length + 1)
  let issued := countOnes (text.drop length)
  (⟨String.ofList (text.take length), String.ofList ((text.drop length).drop (issued + 1))⟩, issued)

theorem drop_replicate (n : Nat) (rest : List Char) :
    (List.replicate n '1' ++ '.' :: rest).drop (n + 1) = rest := by
  rw [← List.drop_drop, List.drop_left' (List.length_replicate ..)]
  rfl

theorem readTransparent_token (payload : JwtPayload) (issued : Nat) :
    readTransparent (transparentToken payload issued) = (payload, issued) := by
  unfold readTransparent transparentToken
  simp only [countOnes_replicate, drop_replicate, List.take_left', List.drop_left',
    String.ofList_toList]

/-- A `JwtService` with such tokens, which last for an hour. -/
def Jwt.transparent : Jwt where
  lifetime := 3600
  sign payload now := String.ofList (transparentToken payload now)
  verify token now :=
    let (payload, issued) := readTransparent token.toList
    if token = String.ofList (transparentToken payload issued) ∧ now < issued + 3600
    then some payload
    else none
  verify_sign := by
    intro payload issued now
    simp only [String.toList_ofList, readTransparent_token, true_and]
  verify_other := by
    intro token now other
    exact if_neg fun same => other _ _ same.1

/-- Alice's row with the given password and role. -/
def aliceAs (password : String) (role : UserRole) (updatedAt : Int) : User :=
  { aliceWith (Bcrypt.transparent.hash password 10 (Vector.replicate 22 's')) with role, updatedAt }

/-- Alice alone is registered. -/
def aliceAlone : Accounts := ⟨⟨[aliceAs "secret" .staff 0], by simp, by simp, by simp⟩, 0⟩

/-- Alice is promoted, and before that is saved she changes her password. -/
def promotedMeanwhile : List (Event AccountRequest (Option AccountChoice) Nat) :=
  [.arrive (.mutation (.updateUser "alice" ⟨.undefined, .given "admin"⟩)),
    .resume 0 (some (.user .reply)),
    .arrive (.mutation (.updateUser "alice" ⟨.given "secret2", .undefined⟩)),
    .resume 1 (some (.user .reply)),
    .resume 1 (some (.user (.salt (Vector.replicate 22 's')))),
    .resume 1 (some (.user (.generated "" 1)))]

/-- The promotion is saved, with the password it has read. -/
def promotionSaved : List (Event AccountRequest (Option AccountChoice) Nat) :=
  [.resume 0 (some (.user (.generated "" 2)))]

/-- Alice's new password is lost, and everything else about her is kept. -/
theorem identities_persist_lost_password :
    ∃ P P', (accountServer .transparent .transparent).run promotedMeanwhile ⟨aliceAlone, []⟩ =
        some P ∧
      (accountServer .transparent .transparent).run promotionSaved P = some P' ∧
      P.shared.users.rows = [aliceAs "secret2" .staff 1] ∧
      P'.shared.users.rows = [aliceAs "secret" .admin 2] ∧
      Persists P.shared.users P'.shared.users ∧ ∀ user ∈ P'.shared.users.rows,
        Vouched .transparent aliceAlone.users
          (Arrives (promotedMeanwhile ++ promotionSaved)) user := by
  have first : (((accountServer .transparent .transparent).run promotedMeanwhile
      ⟨aliceAlone, []⟩).any fun P => decide (P.shared.users.rows = [aliceAs "secret2" .staff 1]) &&
        ((accountServer .transparent .transparent).run promotionSaved P).any fun P' =>
          decide (P'.shared.users.rows = [aliceAs "secret" .admin 2])) = true := by
    decide +kernel
  obtain ⟨P, ran, seen⟩ := (Option.any_eq_true _ _).mp first
  rw [Bool.and_eq_true] at seen
  obtain ⟨P', later, seen'⟩ := (Option.any_eq_true _ _).mp seen.2
  obtain ⟨stays, vouched⟩ := identities_persist .transparent .transparent ran later
  exact ⟨P, P', ran, later, of_decide_eq_true seen.1, of_decide_eq_true seen', stays, vouched⟩

end RestaurantAssistant
