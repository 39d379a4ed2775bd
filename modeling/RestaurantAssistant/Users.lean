import Mathlib.Data.List.Nodup
import RestaurantAssistant.Async.Server
import RestaurantAssistant.Js.Json

/-!
# Users (`user.service.ts`, `auth.service.ts`, `user.entity.ts`)

The user table, the operations of `UserService` that change it, and the two ways of
checking a password: `UserService.validateUser` by username and
`AuthService.validateUser` by email.

The validation pipe is not in use for users, so that the inputs are whatever the
GraphQL schema admits.  `bcrypt` is ideal (`Bcrypt`): a password fits the hashes of
itself and nothing else.  A call may also be rejected without effect, whatever it is.
-/

namespace RestaurantAssistant

open Awaiting Js

/-! ## The table -/

inductive UserRole
  | admin
  | staff
  deriving DecidableEq

def UserRole.text : UserRole → String
  | .admin => "admin"
  | .staff => "staff"

/-- The value of the column's enumeration, if the text is one. -/
def UserRole.ofText (text : String) : Option UserRole :=
  [admin, staff].find? fun role => role.text = text

/-- A user without the password. -/
structure UserRecord where
  id : String
  username : String
  email : String
  role : UserRole
  createdAt : Int
  updatedAt : Int
  deriving DecidableEq

structure User extends UserRecord where
  password : String
  deriving DecidableEq

/-- An entity handed to `userRepository.save`: without an `id` it is new, and the
columns a client has a say in may hold `null` or, for the role, any text. -/
structure UserDraft where
  id : Option String
  username : String
  email : String
  password : Option String
  role : Option String
  createdAt : Option Int
  deriving DecidableEq

/-- The user table with its unique columns. -/
structure Users where
  rows : List User
  ids : (rows.map fun user => user.id).Nodup
  usernames : (rows.map fun user => user.username).Nodup
  emails : (rows.map fun user => user.email).Nodup

namespace Users

def empty : Users := ⟨[], .nil, .nil, .nil⟩

/-- The table with these rows, if they meet its constraints. -/
def ofRows (rows : List User) : Option Users :=
  if unique : (rows.map fun user => user.id).Nodup ∧ (rows.map fun user => user.username).Nodup ∧
      (rows.map fun user => user.email).Nodup then
    some ⟨rows, unique.1, unique.2.1, unique.2.2⟩
  else none

theorem rows_of_ofRows {rows : List User} {T : Users} (built : ofRows rows = some T) :
    T.rows = rows := by
  unfold ofRows at built
  split at built
  · cases built
    rfl
  · cases built

/-- Replace the row with the user's `id`, or append a row if there is none. -/
def put (T : Users) (user : User) : List User :=
  if T.rows.any (fun row => row.id = user.id) then
    T.rows.map fun row => if row.id = user.id then user else row
  else T.rows ++ [user]

variable {T : Users} {user user' : User}

theorem eq_of_username (member : user ∈ T.rows) (member' : user' ∈ T.rows)
    (same : user.username = user'.username) : user = user' :=
  List.inj_on_of_nodup_map T.usernames member member' same

theorem eq_of_email (member : user ∈ T.rows) (member' : user' ∈ T.rows)
    (same : user.email = user'.email) : user = user' :=
  List.inj_on_of_nodup_map T.emails member member' same

/-- The user with the given name. -/
def byUsername (T : Users) (username : String) : Option User :=
  T.rows.find? fun user => user.username = username

/-- The user with the given address. -/
def byEmail (T : Users) (email : String) : Option User :=
  T.rows.find? fun user => user.email = email

theorem of_byUsername {username : String} (found : T.byUsername username = some user) :
    user ∈ T.rows ∧ user.username = username := by
  have selected := List.find?_some found
  exact ⟨List.mem_of_find?_eq_some found, of_decide_eq_true selected⟩

theorem byUsername_of_mem (member : user ∈ T.rows) : T.byUsername user.username = some user := by
  cases found : T.byUsername user.username with
  | none => exact absurd (List.find?_eq_none.mp found user member) (by simp)
  | some user' =>
    obtain ⟨member', same⟩ := of_byUsername found
    rw [eq_of_username member' member same]

theorem byEmail_of_mem (member : user ∈ T.rows) : T.byEmail user.email = some user := by
  cases found : T.byEmail user.email with
  | none => exact absurd (List.find?_eq_none.mp found user member) (by simp)
  | some user' =>
    have selected := List.find?_some found
    rw [eq_of_email (List.mem_of_find?_eq_some found) member (of_decide_eq_true selected)]

end Users

/-! ## The calls -/

/-- The characters that salt a hash. -/
abbrev Salt := Vector Char 22

/-- An ideal `bcrypt`. -/
structure Bcrypt where
  hash : (password : String) → (rounds : Nat) → Salt → String
  compare : (password stored : String) → Bool
  compare_hash {p q : String} {rounds : Nat} {salt : Salt} :
    compare p (hash q rounds salt) = decide (p = q)
  compare_other {p stored : String} (other : ∀ q rounds salt, stored ≠ hash q rounds salt) :
    compare p stored = false
  hash_ne_empty {p : String} {rounds : Nat} {salt : Salt} : hash p rounds salt ≠ ""

inductive UserExn
  | conflict (message : String)
  | notFound (message : String)
  | unauthorized (message : String)
  /-- A call the database or the library rejects. -/
  | rejected
  deriving DecidableEq

inductive UserCall
  | findByUsername (username : String)
  | findByEmail (email : String)
  | save (entity : UserDraft)
  | hash (password : String) (rounds : Nat)
  | compare (password stored : String)
  deriving DecidableEq

@[reducible] def UserCall.Reply : UserCall → Type
  | .findByUsername _ => Option User
  | .findByEmail _ => Option User
  | .save _ => User
  | .hash _ _ => String
  | .compare _ _ => Bool

/-- The calls of the user services and what they resolve with. -/
@[reducible] def userApi : Signature := ⟨UserCall, UserCall.Reply, UserExn⟩

/-- What is left open in a call: the salt of a hash, and the `id` and the time the
database generates. -/
inductive UserChoice
  | reply
  | salt (salt : Salt)
  | generated (id : String) (now : Int)

/-- Save an entity.  The columns are not nullable, the role is one of the two, and
`id`, username and email are unique. -/
def Users.save (T : Users) (id : String) (now : Int) (entity : UserDraft) :
    Except UserExn User × Users :=
  match entity.password, entity.role.bind UserRole.ofText with
  | some password, some role =>
    let row : User :=
      { id := entity.id.getD id
        username := entity.username
        email := entity.email
        role
        createdAt := entity.createdAt.getD now
        updatedAt := now
        password }
    match ofRows (if entity.id.isSome then T.put row else T.rows ++ [row]) with
    | some T' => (.ok row, T')
    | none => (.error .rejected, T)
  | _, _ => (.error .rejected, T)

/-- Outcome and effect of an awaited call. -/
def Users.answer (bcrypt : Bcrypt) : UserChoice → (call : UserCall) → Users →
    Option (Except UserExn call.Reply × Users)
  | .reply, .findByUsername username, T => some (.ok (T.byUsername username), T)
  | .reply, .findByEmail email, T => some (.ok (T.byEmail email), T)
  | .reply, .compare password stored, T => some (.ok (bcrypt.compare password stored), T)
  | .salt salt, .hash password rounds, T => some (.ok (bcrypt.hash password rounds salt), T)
  | .generated id now, .save entity, T => some (T.save id now entity)
  | _, _, _ => none

def userInterp (bcrypt : Bcrypt) : Interp userApi Users UserChoice := ⟨Users.answer bcrypt⟩

/-! ## The services -/

structure CreateUserInput where
  username : String
  email : String
  password : String
  role : Arg String
  deriving DecidableEq

structure UpdateUserInput where
  password : Arg String
  role : Arg String
  deriving DecidableEq

namespace UserService

def saltRounds : Nat := 10

@[simp] def findByUsername (username : String) : Async userApi (Option User) :=
  Async.call (σ := userApi) (.findByUsername username)

@[simp] def findByEmail (email : String) : Async userApi (Option User) :=
  Async.call (σ := userApi) (.findByEmail email)

@[simp] def save (entity : UserDraft) : Async userApi User :=
  Async.call (σ := userApi) (.save entity)

@[simp] def hash (password : String) : Async userApi String :=
  Async.call (σ := userApi) (.hash password saltRounds)

@[simp] def compare (password stored : String) : Async userApi Bool :=
  Async.call (σ := userApi) (.compare password stored)

/-- Register a user.  The role is `'staff'` if it is undefined. -/
def createUser (username email password : String) (role : Arg String) :
    Async userApi UserRecord := do
  match ← findByUsername username with
  | some _ => .throw (.conflict "Username already exists" : UserExn)
  | none =>
    match ← findByEmail email with
    | some _ => .throw (.conflict "Email already exists" : UserExn)
    | none =>
      let hashedPassword ← hash password
      let savedUser ← save
        { id := none
          username
          email
          password := some hashedPassword
          role := role.assign "staff"
          createdAt := none }
      pure savedUser.toUserRecord

/-- The entity after `Object.assign(user, input)`. -/
def assign (user : User) (input : UpdateUserInput) : UserDraft where
  id := some user.id
  username := user.username
  email := user.email
  password := input.password.assign user.password
  role := input.role.assign user.role.text
  createdAt := some user.createdAt

/-- Change password or role.  A password that is not truthy is not hashed. -/
def updateUser (username : String) (input : UpdateUserInput) : Async userApi UserRecord := do
  match ← findByUsername username with
  | none => .throw (.notFound "User not found" : UserExn)
  | some user =>
    match input.password.text with
    | some password =>
      let hashedPassword ← hash password
      let savedUser ← save (assign user { input with password := .given hashedPassword })
      pure savedUser.toUserRecord
    | none =>
      let savedUser ← save (assign user input)
      pure savedUser.toUserRecord

/-- The user with that name, if the password fits. -/
def validateUser (username password : String) : Async userApi (Option UserRecord) := do
  match ← findByUsername username with
  | none => pure none
  | some user =>
    let isPasswordValid ← compare password user.password
    if isPasswordValid then pure (some user.toUserRecord) else pure none

end UserService

structure LoginResponse where
  accessToken : String
  user : UserRecord
  deriving DecidableEq

namespace AuthService

/-- The user with that address, if the password fits. -/
def validateUser (email password : String) : Async userApi (Option UserRecord) := do
  match ← UserService.findByEmail email with
  | some user =>
    let isPasswordValid ← UserService.compare password user.password
    if isPasswordValid then pure (some user.toUserRecord) else pure none
  | none => pure none

/-- Log in by address and password.  `sign` is the token for an address and an `id`. -/
def login (sign : (email sub : String) → String) (email password : String) :
    Async userApi LoginResponse := do
  match ← validateUser email password with
  | none => .throw (.unauthorized "Invalid credentials" : UserExn)
  | some user => pure ⟨sign user.email user.id, user⟩

end AuthService

/-! ## Requests -/

inductive UserMutation
  | createUser (input : CreateUserInput)
  | updateUser (username : String) (input : UpdateUserInput)
  deriving DecidableEq

def UserMutation.handle : UserMutation → Async userApi UserRecord
  | .createUser input =>
    UserService.createUser input.username input.email input.password input.role
  | .updateUser username input => UserService.updateUser username input

/-- The mutations on the user table, where any call may be rejected. -/
def userServer (bcrypt : Bcrypt) :
    Server userApi UserMutation Users (Option UserChoice) Empty UserRecord where
  interp := (userInterp bcrypt).failing (fun _ => true) .rejected
  handle := UserMutation.handle
  env := nofun

end RestaurantAssistant
