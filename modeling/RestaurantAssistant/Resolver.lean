import RestaurantAssistant.Async.Gate
import RestaurantAssistant.Js.Joined
import RestaurantAssistant.Ledger
import RestaurantAssistant.Loops
import RestaurantAssistant.StoredRows
import RestaurantAssistant.Validation

/-!
# The resolver (`reservation.resolver.ts`)

The operations as clients call them: arguments with any texts and numbers, the decorators of
the input types with their messages, and the pipes that run them before the service is asked.

The pipes are a gate: whatever the interleaving, what they let through runs in the service as
if it were all there is, and the rows it leaves are well formed (`resolver_admits_only_valid`).
What they refuse makes no call, and the text of the refusal can be read back as the messages
of the constraints that fail, field by field (`refusals_read_back`).
-/

namespace RestaurantAssistant

open Awaiting Js

/-! ## Arguments -/

/-- A `CreateReservationInput` before validation: `guests` is any number. -/
structure CreateReservationArgs where
  customerName : String
  date : String
  time : String
  guests : JsNumber
  deriving DecidableEq

/-- An `UpdateReservationInput` before validation. -/
structure UpdateReservationArgs where
  id : Int
  customerName : Arg String
  date : Arg String
  time : Arg String
  guests : Arg JsNumber
  deriving DecidableEq

/-- The number as the service takes it, once the pipe has let it through. -/
def wholeNumber : JsNumber → Int
  | .finite q => ⌊q⌋
  | _ => 0

@[simp] theorem wholeNumber_intCast (n : Int) : wholeNumber (n : JsNumber) = n := by
  rw [JsNumber.intCast_eq]
  exact Int.floor_intCast n

def CreateReservationArgs.input (args : CreateReservationArgs) : CreateReservationInput :=
  ⟨args.customerName, args.date, args.time, wholeNumber args.guests⟩

def UpdateReservationArgs.input (args : UpdateReservationArgs) : UpdateReservationInput :=
  ⟨args.id, args.customerName, args.date, args.time, args.guests.map wholeNumber⟩

def CheckAvailabilityArgs.input (args : CheckAvailabilityArgs) : CheckAvailabilityInput :=
  ⟨args.date, args.time, args.timeRange, wholeNumber args.guests⟩

/-- The default of a field that is left out; an explicit `null` stays. -/
def withDefault {α : Type} (value : α) : Arg α → Arg α
  | .undefined => .given value
  | arg => arg

def PaginationInput.withDefaults (pagination : PaginationInput) : PaginationInput :=
  ⟨withDefault 1 pagination.page, withDefault 10 pagination.limit⟩

def SortInput.withDefaults (sort : SortInput) : SortInput :=
  ⟨sort.sortBy, withDefault "ASC" sort.order⟩

/-! ## The decorators of reservations

Those of each field in the order they are applied, which is from the last one up. -/

section Decorators

variable (isDateString : String → Bool)

def isNotEmpty (message : String) : Validator String := ⟨"isNotEmpty", (· != ""), message⟩

/-- `@IsString()`, which GraphQL has made sure of. -/
def isString (name : String) : Validator String :=
  ⟨"isString", fun _ => true, name ++ " must be a string"⟩

def customerNameDecorators : List (Validator String) :=
  [isNotEmpty "Customer name is required", isString "customerName"]

def dateDecorators : List (Validator String) :=
  [isNotEmpty "Date is required",
    ⟨"isDateString", isDateString, "date must be a valid ISO 8601 date string"⟩]

def timeDecorators : List (Validator String) :=
  [⟨"matches", createTimePattern.test, "Invalid time format. Use HH:MM (24-hour format)"⟩,
    isString "time", isNotEmpty "Time is required"]

def guestsDecorators : List (Validator JsNumber) :=
  [⟨"min", (1 : JsNumber).le, "guests must not be less than 1"⟩,
    ⟨"isInt", isInt, "guests must be an integer number"⟩,
    ⟨"isNotEmpty", fun _ => true, "Guests count is required"⟩]

def CreateReservationArgs.properties : List (Property CreateReservationArgs) :=
  [.on "customerName" customerName customerNameDecorators,
    .on "date" date (dateDecorators isDateString), .on "time" time timeDecorators,
    .on "guests" guests guestsDecorators]

/-- The decorator of the class itself, then those `PartialType` takes over. -/
def UpdateReservationArgs.properties : List (Property UpdateReservationArgs) :=
  [.on "id" (fun args => (args.id : JsNumber)) [⟨"isInt", isInt, "ID must be an integer"⟩],
    .optional "customerName" (fun args => args.customerName.toOption) customerNameDecorators,
    .optional "date" (fun args => args.date.toOption) (dateDecorators isDateString),
    .optional "time" (fun args => args.time.toOption) timeDecorators,
    .optional "guests" (fun args => args.guests.toOption) guestsDecorators]

/-- The pipe in front of an operation: the arguments, or the errors in one message. -/
def validationPipe {α : Type} (properties : List (Property α)) (args : α) : Except Exn α :=
  match validate properties args with
  | [] => .ok args
  | errors => .error (.badRequest
      ("; ".intercalate (errors.map CheckAvailabilityArgs.errorText)))

end Decorators

/-! ## The operations -/

namespace ReservationResolver

variable (isDateString : String → Bool) (cfg : Config) (rounds : Nat)

def getReservations (filter : Arg ReservationFilterInput) (pagination : Arg PaginationInput)
    (sort : Arg SortInput) : Async api QueryOutput :=
  RestaurantAssistant.getReservations filter (pagination.map PaginationInput.withDefaults)
    (sort.map SortInput.withDefaults)

def checkAvailability (args : CheckAvailabilityArgs) : Async api QueryOutput := do
  let data ← Async.ofExcept (args.validationPipe isDateString)
  RestaurantAssistant.checkAvailability cfg data.input

def createReservation (args : CreateReservationArgs) : Async api CreateReservationOutput := do
  let data ← Async.ofExcept (validationPipe (CreateReservationArgs.properties isDateString) args)
  RestaurantAssistant.createReservation cfg rounds data.input

def cancelReservation (id : Int) : Async api Bool := RestaurantAssistant.cancelReservation rounds id

def updateReservation (args : UpdateReservationArgs) : Async api Reservation := do
  let data ← Async.ofExcept (validationPipe (UpdateReservationArgs.properties isDateString) args)
  RestaurantAssistant.updateReservation rounds data.input

end ReservationResolver

/-- What a client asks for. -/
inductive Operation
  | getReservations (filter : Arg ReservationFilterInput) (pagination : Arg PaginationInput)
      (sort : Arg SortInput)
  | checkAvailability (data : CheckAvailabilityArgs)
  | createReservation (data : CreateReservationArgs)
  | cancelReservation (id : Int)
  | updateReservation (data : UpdateReservationArgs)
  deriving DecidableEq

section Operations

variable (isDateString : String → Bool) (db : QueryEngine) (cfg : Config) (rounds : Nat)

def Operation.handle : Operation → Async api Response
  | .getReservations filter pagination sort =>
    .queried <$> ReservationResolver.getReservations filter pagination sort
  | .checkAvailability data =>
    .queried <$> ReservationResolver.checkAvailability isDateString cfg data
  | .createReservation data =>
    .created <$> ReservationResolver.createReservation isDateString cfg rounds data
  | .cancelReservation id => .cancelled <$> ReservationResolver.cancelReservation rounds id
  | .updateReservation data =>
    .updated <$> ReservationResolver.updateReservation isDateString rounds data

/-- The resolver in front of the service. -/
def resolver : Server api Operation World Choice String Response where
  interp := interp db
  handle := Operation.handle isDateString cfg rounds
  env := (server db cfg rounds).env

/-- What the pipe makes of an operation: a request for the service, or a refusal. -/
def Operation.gate : Operation → Except Exn Request
  | .getReservations filter pagination sort =>
    .ok (.query (.getReservations filter (pagination.map PaginationInput.withDefaults)
      (sort.map SortInput.withDefaults)))
  | .checkAvailability data =>
    (data.validationPipe isDateString).map fun data => .query (.checkAvailability data.input)
  | .createReservation data =>
    (validationPipe (CreateReservationArgs.properties isDateString) data).map
      fun data => .mutation (.createReservation data.input)
  | .cancelReservation id => .ok (.mutation (.cancelReservation id))
  | .updateReservation data =>
    (validationPipe (UpdateReservationArgs.properties isDateString) data).map
      fun data => .mutation (.updateReservation data.input)

/-- The messages of the constraints the operation violates, field by field. -/
def Operation.complaints : Operation → List (List String)
  | .checkAvailability data => Js.complaints (CheckAvailabilityArgs.properties isDateString) data
  | .createReservation data => Js.complaints (CreateReservationArgs.properties isDateString) data
  | .updateReservation data => Js.complaints (UpdateReservationArgs.properties isDateString) data
  | _ => []

/-- A program that starts with a check is the check, then the program. -/
theorem map_ofExcept_bind {α β γ : Type} (f : β → γ) (x : Except Exn α) (k : α → Async api β) :
    f <$> ((Async.ofExcept x : Async api α) >>= k) =
      (Async.ofExcept x : Async api α) >>= fun a => f <$> k a := by
  cases x <;> rfl

theorem ofExcept_map_bind {α β γ : Type} (f : α → β) (x : Except Exn α) (k : β → Async api γ) :
    (Async.ofExcept (x.map f) : Async api β) >>= k =
      (Async.ofExcept x : Async api α) >>= fun a => k (f a) := by
  cases x <;> rfl

/-- The resolver is the service behind its pipes. -/
theorem resolver_eq_behind : resolver isDateString db cfg rounds =
    (server db cfg rounds).behind (Operation.gate isDateString) := by
  have handled : ∀ o : Operation, o.handle isDateString cfg rounds =
      (Async.ofExcept (o.gate isDateString) : Async api Request) >>= Request.handle cfg rounds := by
    intro o
    cases o with
    | getReservations filter pagination sort => rfl
    | cancelReservation id => rfl
    | checkAvailability data =>
      unfold Operation.gate
      rw [ofExcept_map_bind]
      exact map_ofExcept_bind _ _ _
    | createReservation data =>
      unfold Operation.gate
      rw [ofExcept_map_bind]
      exact map_ofExcept_bind _ _ _
    | updateReservation data =>
      unfold Operation.gate
      rw [ofExcept_map_bind]
      exact map_ofExcept_bind _ _ _
  unfold resolver Server.behind
  rw [funext handled]
  rfl

end Operations

/-! ## Refusals -/

/-- The text of a refusal. -/
def complaintText (complaints : List (List String)) : String :=
  "; ".intercalate (complaints.map fun messages => ", ".intercalate messages)

/-- What a client reads back from it. -/
def readBack (text : String) : List (List String) := (parts ';' text).map (parts ',')

section Refusals

variable {isDateString : String → Bool} {α : Type} {properties : List (Property α)} {args : α}

/-- The messages can be told from what joins them. -/
def Legible (message : String) : Prop := Separable ',' message ∧ Separable ';' message

instance (message : String) : Decidable (Legible message) :=
  inferInstanceAs (Decidable (_ ∧ _))

theorem readBack_complaintText {complaints : List (List String)} (nonempty : complaints ≠ [])
    (legible : ∀ messages ∈ complaints, messages ≠ [] ∧ ∀ message ∈ messages, Legible message) :
    readBack (complaintText complaints) = complaints := by
  have outer : ∀ text ∈ complaints.map (fun messages => ", ".intercalate messages),
      Separable ';' text := by
    intro text member
    obtain ⟨messages, isComplaint, rfl⟩ := List.mem_map.mp member
    exact separable_intercalate (d := ',') (by decide) (by decide) (by decide)
      fun message inside => ((legible messages isComplaint).2 message inside).2
  have split : parts ';' (complaintText complaints) =
      complaints.map fun messages => ", ".intercalate messages :=
    parts_intercalate (by decide) (by simpa using nonempty) outer
  unfold readBack
  rw [split, List.map_map]
  refine (List.map_congr_left ?_).trans (List.map_id complaints)
  intro messages member
  obtain ⟨some_, inner⟩ := legible messages member
  exact parts_intercalate (by decide) some_ fun message inside => (inner message inside).1

theorem validationPipe_ok (accepted : accepts properties args = true) :
    validationPipe properties args = .ok args := by
  have none : validate properties args = [] := List.isEmpty_iff.mp accepted
  simp only [validationPipe, none]

theorem eq_of_map_validationPipe {β : Type} {f : α → β} {b : β}
    (accepted : accepts properties args = true)
    (through : (validationPipe properties args).map f = .ok b) : b = f args := by
  rw [validationPipe_ok accepted] at through
  cases through
  rfl

theorem validationPipe_error (refused : Js.complaints properties args ≠ []) :
    validationPipe properties args =
      .error (.badRequest (complaintText (Js.complaints properties args))) := by
  have texts : (validate properties args).map CheckAvailabilityArgs.errorText =
      (Js.complaints properties args).map fun messages => ", ".intercalate messages := by
    unfold Js.complaints
    rw [List.map_map]
    refine List.map_congr_left fun error member => ?_
    have some_ := (complaints_declared (List.mem_map.mpr ⟨error, member, rfl⟩)).1
    have shown : error.constraints.isEmpty = false := by
      cases empty : error.constraints with
      | nil =>
        rw [empty] at some_
        exact absurd rfl some_
      | cons first others => rfl
    simp only [CheckAvailabilityArgs.errorText, shown, Function.comp]
    rfl
  unfold validationPipe complaintText
  rw [← texts]
  cases found : validate properties args with
  | nil =>
    unfold Js.complaints at refused
    rw [found] at refused
    exact absurd rfl refused
  | cons error errors => rfl

theorem legible_of_complaint {messages : List String}
    (legible : ∀ property ∈ properties, ∀ v ∈ property.validators, Legible v.message)
    (member : messages ∈ Js.complaints properties args) :
    messages ≠ [] ∧ ∀ message ∈ messages, Legible message := by
  obtain ⟨some_, declared⟩ := complaints_declared member
  refine ⟨some_, fun message inside => ?_⟩
  obtain ⟨property, isProperty, v, isValidator, rfl⟩ := declared message inside
  exact legible property isProperty v isValidator

/-- Every message of the source is legible. -/
theorem Operation.legible {o : Operation} {messages : List String}
    (member : messages ∈ o.complaints isDateString) :
    messages ≠ [] ∧ ∀ message ∈ messages, Legible message := by
  cases o with
  | getReservations filter pagination sort => cases member
  | cancelReservation id => cases member
  | checkAvailability data =>
    refine legible_of_complaint ?_ member
    simp only [CheckAvailabilityArgs.properties, CheckAvailabilityArgs.isTimeOrRange,
      List.forall_mem_cons, List.not_mem_nil, false_imp_iff, implies_true, and_true]
    decide
  | createReservation data =>
    refine legible_of_complaint ?_ member
    simp only [CreateReservationArgs.properties, Property.on, Validator.on, customerNameDecorators,
      dateDecorators, timeDecorators, guestsDecorators, isNotEmpty, isString, List.forall_mem_cons,
      List.map_cons, List.map_nil, List.not_mem_nil, false_imp_iff, implies_true, and_true]
    decide
  | updateReservation data =>
    refine legible_of_complaint ?_ member
    simp only [UpdateReservationArgs.properties, Property.on, Property.optional, Validator.on,
      customerNameDecorators, dateDecorators, timeDecorators, guestsDecorators, isNotEmpty,
      isString,
      List.forall_mem_cons, List.map_cons, List.map_nil, List.not_mem_nil, false_imp_iff,
      implies_true, and_true]
    decide

/-- What violates a constraint is refused with all its messages. -/
theorem Operation.gate_error {o : Operation} (refused : o.complaints isDateString ≠ []) :
    o.gate isDateString = .error (.badRequest (complaintText (o.complaints isDateString))) := by
  cases o with
  | getReservations filter pagination sort => exact absurd rfl refused
  | cancelReservation id => exact absurd rfl refused
  | checkAvailability data => exact congrArg (Except.map _) (validationPipe_error refused)
  | createReservation data => exact congrArg (Except.map _) (validationPipe_error refused)
  | updateReservation data => exact congrArg (Except.map _) (validationPipe_error refused)

theorem Operation.gate_ok {o : Operation} (clean : o.complaints isDateString = []) :
    ∃ r, o.gate isDateString = .ok r := by
  cases o with
  | getReservations filter pagination sort => exact ⟨_, rfl⟩
  | cancelReservation id => exact ⟨_, rfl⟩
  | checkAvailability data =>
    exact ⟨_, congrArg (Except.map _) (validationPipe_ok (complaints_eq_nil.mp clean))⟩
  | createReservation data =>
    exact ⟨_, congrArg (Except.map _) (validationPipe_ok (complaints_eq_nil.mp clean))⟩
  | updateReservation data =>
    exact ⟨_, congrArg (Except.map _) (validationPipe_ok (complaints_eq_nil.mp clean))⟩

end Refusals

/-! ## What gets through -/

section Valid

variable {isDateString : String → Bool}

theorem wholeNumber_of_declared {guests : JsNumber} (declared : GuestsDeclared guests) :
    (wholeNumber guests : JsNumber) = guests ∧ 1 ≤ wholeNumber guests := by
  obtain ⟨n, rfl, one⟩ := declared
  rw [wholeNumber_intCast]
  exact ⟨rfl, one⟩

theorem guestsDecorators_iff {guests : JsNumber} :
    (∀ v ∈ guestsDecorators, v.check guests = true) ↔ GuestsDeclared guests := by
  rw [guestsDeclared_iff]
  simp [guestsDecorators]

theorem CreateReservationArgs.accepted_input {args : CreateReservationArgs}
    (accepted : accepts (properties isDateString) args = true) :
    args.input.accepted isDateString = true := by
  unfold properties at accepted
  simp only [accepts_cons_on, guestsDecorators_iff] at accepted
  obtain ⟨name, date, time, guests, -⟩ := accepted
  have one := (wholeNumber_of_declared guests).2
  simp only [customerNameDecorators, dateDecorators, timeDecorators, isNotEmpty, isString,
    List.forall_mem_cons, List.not_mem_nil, false_imp_iff, implies_true, and_true] at name date time
  simp only [CreateReservationInput.accepted, input, Bool.and_eq_true]
  exact ⟨⟨⟨name, date.2, date.1⟩, time.2.2, time.1⟩, decide_eq_true one⟩

theorem UpdateReservationArgs.accepted_input {args : UpdateReservationArgs}
    (accepted : accepts (properties isDateString) args = true) :
    args.input.accepted isDateString = true := by
  unfold properties at accepted
  simp only [accepts_cons_on, accepts_cons_optional, guestsDecorators_iff] at accepted
  obtain ⟨-, name, date, time, guests, -⟩ := accepted
  simp only [customerNameDecorators, dateDecorators, timeDecorators, isNotEmpty, isString,
    List.forall_mem_cons, List.not_mem_nil, false_imp_iff, implies_true, and_true] at name date time
  simp only [UpdateReservationInput.accepted, input, Bool.and_eq_true]
  refine ⟨⟨⟨?_, ?_⟩, ?_⟩, ?_⟩
  · cases given : args.customerName with
    | given value => exact name value (by rw [given]; rfl)
    | _ => rfl
  · cases given : args.date with
    | given value =>
      have checked := date value (by rw [given]; rfl)
      simp [Arg.optional, checked.1, checked.2]
    | _ => rfl
  · cases given : args.time with
    | given value =>
      have checked := time value (by rw [given]; rfl)
      simp [Arg.optional, checked.1, checked.2.2]
    | _ => rfl
  · cases given : args.guests with
    | given value =>
      exact decide_eq_true (wholeNumber_of_declared (guests value (by rw [given]; rfl))).2
    | _ => rfl

theorem CheckAvailabilityArgs.accepted_input {args : CheckAvailabilityArgs}
    (accepted : args.accepted isDateString = true) : args.input.accepted isDateString = true := by
  have guests := (CheckAvailabilityArgs.accepted_iff.mp accepted).2.1
  have same : args.input.args = args := by
    simp only [CheckAvailabilityInput.args, input, (wholeNumber_of_declared guests).1]
  unfold CheckAvailabilityInput.accepted
  rw [same]
  exact accepted

/-- Only requests with accepted inputs get through. -/
theorem Operation.accepted_of_gate {o : Operation} {r : Request}
    (admitted : o.gate isDateString = .ok r) : r.accepted isDateString = true := by
  have clean : o.complaints isDateString = [] := by
    by_contra refused
    rw [Operation.gate_error refused] at admitted
    cases admitted
  cases o with
  | getReservations filter pagination sort =>
    cases admitted
    rfl
  | cancelReservation id =>
    cases admitted
    rfl
  | checkAvailability data =>
    have accepted := complaints_eq_nil.mp clean
    rw [eq_of_map_validationPipe accepted admitted]
    exact CheckAvailabilityArgs.accepted_input accepted
  | createReservation data =>
    have accepted := complaints_eq_nil.mp clean
    rw [eq_of_map_validationPipe accepted admitted]
    exact CreateReservationArgs.accepted_input accepted
  | updateReservation data =>
    have accepted := complaints_eq_nil.mp clean
    rw [eq_of_map_validationPipe accepted admitted]
    exact UpdateReservationArgs.accepted_input accepted

theorem accepted_of_arrivals {C E : Type} (es : List (Event Operation C E)) {r : Request}
    (arrives : r ∈ arrivals (σ := api) (Operation.gate isDateString) es) :
    r.accepted isDateString = true := by
  obtain ⟨e, -, asked⟩ := List.mem_filterMap.mp arrives
  obtain ⟨o, -, admitted⟩ := Option.bind_eq_some_iff.mp asked
  cases judged : o.gate isDateString with
  | error e =>
    rw [judged] at admitted
    cases admitted
  | ok r' =>
    rw [judged] at admitted
    cases admitted
    exact Operation.accepted_of_gate judged

end Valid

/-! ## Runs -/

section Runs

variable {isDateString : String → Bool} {db : QueryEngine} {cfg : Config} {rounds : Nat}
  {P P' : Pool api Request World Response}

/-- A request that got through: a query only reads, a mutation writes as it may. -/
def GotThrough (db : QueryEngine) (isDateString : String → Bool) (r : Request)
    (h : History api World) (p : Async api Response) : Prop :=
  OnlyReads p ∨ Mutates db isDateString r h p

theorem OnlyReads.always {p : Async api Response} {h : History api World} (reads : OnlyReads p) :
    p.Always (interp db) (fun _ q => OnlyReads q) h := by
  induction p generalizing h with
  | pure a => exact reads
  | throw e => exact reads
  | diverge => exact reads
  | await call k ih => exact ⟨reads, fun c s r s' _ => ih r (reads.2 r)⟩

theorem gotThrough_of_accepted {r : Request} (accepted : r.accepted isDateString = true) :
    (r.handle cfg rounds).Always (interp db) (GotThrough db isDateString r) [] := by
  cases r with
  | query q => exact (onlyReads_query q).always.mono fun h p reads => .inl reads
  | mutation m =>
    have mutates : (Request.mutation m).mutates isDateString = true := by
      cases m <;> exact accepted
    exact (mutates_of_arrival mutates).mono fun h p mutates => .inr mutates

/-- A call that writes no reservation leaves the rows well formed. -/
theorem allStored_of_reads {call : Call} {c : Choice} {reply : Except Exn call.Reply}
    {w w' : World} (reads : call.writes = false)
    (answered : (interp db).answer c call w = some (reply, w'))
    (held : AllStored isDateString w.tables) : AllStored isDateString w'.tables := by
  have silent := silent_of_reads (s := w) reads
  have rows : w'.tables.reservations = w.tables.reservations := by
    rcases rows_of_answer answered with ⟨-, -, same, -⟩ | ⟨row, saved, -⟩ | ⟨id, -, deleted, -⟩ |
      ⟨row, draft, rfl, -⟩
    · exact same
    · rw [silent.1] at saved
      cases saved
    · rw [silent.2] at deleted
      cases deleted
    · cases reads
  intro r member
  rw [rows] at member
  have stored := held r member
  exact { stored with customer := mem_customers_of_answer answered stored.customer }

/-- **The step.**  The rows stay well formed, and what has been seen stays true, over one call
of a request that got through. -/
theorem rowsStored_resume {i : Nat} {c : Choice} {proc : Proc api Request World Response}
    {call : Call} {k : Except Exn call.Reply → Async api Response} {reply : Except Exn call.Reply}
    {w' : World} (through : GotThrough db isDateString proc.request proc.history proc.prog)
    (found : P.procs[i]? = some proc) (suspended : proc.prog = .await call k)
    (answered : (interp db).answer c call P.shared = some (reply, w'))
    (held : RowsStored db isDateString P) :
    RowsStored db isDateString ⟨w', P.procs.set i (proc.resumed call P.shared (k reply))⟩ := by
  obtain ⟨stored, seen⟩ := held
  have inPool := List.mem_of_getElem? found
  have still : ∀ {step}, Seen db isDateString P.shared.tables step →
      Seen db isDateString w'.tables step := by
    intro step was
    exact ⟨was.1, fun c known => mem_customers_of_answer answered (was.2 c known)⟩
  rw [suspended] at through
  constructor
  · rcases through with reads | mutates
    · exact allStored_of_reads reads.1 answered stored
    · exact allStored_step mutates (seen proc inPool) answered stored
  · intro proc' member step made
    rcases List.mem_or_eq_of_mem_set member with member | rfl
    · exact still (seen proc' member step made)
    · rcases List.mem_cons.mp made with rfl | earlier
      · refine ⟨stored, fun c known => ?_⟩
        rw [tables_of_answer answered]
        exact known
      · exact still (seen proc inPool step earlier)

theorem rowsStored_fire {e : Event Request Choice String}
    (through : P.Always (GotThrough db isDateString) (interp db))
    (held : RowsStored db isDateString P) (fired : (server db cfg rounds).fire e P = some P') :
    RowsStored db isDateString P' := by
  rcases Server.fire_cases fired with ⟨r, rfl, rfl⟩ |
    ⟨i, c, proc, call, k, reply, w', rfl, found, suspended, answered, rfl⟩ | ⟨key, rfl, rfl⟩
  · refine ⟨held.1, fun proc member step made => ?_⟩
    rcases List.mem_append.mp member with member | member
    · exact held.2 proc member step made
    · cases List.mem_singleton.mp member
      cases made
  · exact rowsStored_resume (through proc (List.mem_of_getElem? found)).here found suspended
      answered held
  · exact held

variable (isDateString db cfg rounds) {w : World} {es : List (Event Operation Choice String)}
  {Q : Pool api Operation World Response}

variable {isDateString db cfg rounds} in
/-- What gets through is a run of the service with valid requests, and keeps the rows well
formed. -/
theorem admitted_run (start : AllStored isDateString w.tables)
    (ran : (resolver isDateString db cfg rounds).run es ⟨w, []⟩ = some Q) :
    RowsStored db isDateString (Q.admitted (Operation.gate isDateString)) ∧
      ∃ es', (server db cfg rounds).run es' ⟨w, []⟩ =
          some (Q.admitted (Operation.gate isDateString)) ∧
        es'.filterMap Event.request? = arrivals (σ := api) (Operation.gate isDateString) es ∧
        ∀ r, .arrive r ∈ es' → r.accepted isDateString = true := by
  rw [resolver_eq_behind] at ran
  obtain ⟨-, es', ran', arrived⟩ := Server.run_admitted Pool.refuses_nil ran
  have valid : ∀ r, .arrive r ∈ es' → r.accepted isDateString = true := by
    intro r arrives
    apply accepted_of_arrivals es
    rw [← arrived]
    exact List.mem_filterMap.mpr ⟨_, arrives, rfl⟩
  have nothing : RowsStored db isDateString ⟨w, []⟩ :=
    ⟨start, fun proc member => by cases member⟩
  have along : (server db cfg rounds).Along (fun _ e => ∀ r, e = .arrive r →
      r.accepted isDateString = true) es' ⟨w, []⟩ := by
    refine .of_forall fun e member _ r same => ?_
    rw [same] at member
    exact valid r member
  have kept := Server.run_preserves_always (GotThrough db isDateString) (RowsStored db isDateString)
    (fun here => gotThrough_of_accepted (here _ rfl))
    (fun through held _ fired => rowsStored_fire through held fired) ran' along
    (Pool.always_nil _) nothing
  exact ⟨kept.2, es', ran', arrived, valid⟩

/-- **The pipes guard the service.**  In every interleaving of operations with whatever
arguments, what reaches the service is valid and runs there as if it were all there is, and
every row in the tables is well formed. -/
theorem resolver_admits_only_valid (start : AllStored isDateString w.tables)
    (ran : (resolver isDateString db cfg rounds).run es ⟨w, []⟩ = some Q) :
    AllStored isDateString Q.shared.tables ∧
      ∃ es', (server db cfg rounds).run es' ⟨w, []⟩ =
          some (Q.admitted (Operation.gate isDateString)) ∧
        es'.filterMap Event.request? = arrivals (σ := api) (Operation.gate isDateString) es ∧
        ∀ r, .arrive r ∈ es' → r.accepted isDateString = true := by
  obtain ⟨rows, admitted⟩ := admitted_run start ran
  exact ⟨rows.1, admitted⟩

/-- A reservation with nothing right about it. -/
def nonsense : Operation := .createReservation ⟨"", "soon", "25:00", .finite (1 / 2)⟩

/-- The nonsense, and an update that is no better, while a reservation is made. -/
def mixedOperations : List (Event Operation Choice String) :=
  let nothing : Choice := .batch true []
  [.arrive nonsense, .arrive (.createReservation ⟨"Ada", "2025-03-10", "18:00", 4⟩),
    .resume 1 .reply, .resume 1 .reply,
    .arrive (.updateReservation ⟨1, .undefined, .null, .given "", .given 0⟩), .resume 1 .reply,
    .resume 1 .reply, .resume 1 nothing, .resume 1 nothing]

theorem resolver_admits_only_valid_mixed :
    ∃ Q, (resolver isoDateString .inMemory .default 0).run mixedOperations ⟨.empty, []⟩ = some Q ∧
      Q.shared.tables.reservations = [⟨⟨"18:00", 4⟩, 1, "2025-03-10", ⟨1, "Ada"⟩⟩] ∧
      AllStored isoDateString Q.shared.tables ∧
      ∃ es', (server .inMemory .default 0).run es' ⟨.empty, []⟩ =
          some (Q.admitted (Operation.gate isoDateString)) ∧
        es'.filterMap Event.request? =
          arrivals (σ := api) (Operation.gate isoDateString) mixedOperations ∧
        ∀ r, .arrive r ∈ es' → r.accepted isoDateString = true := by
  have checked : (((resolver isoDateString .inMemory .default 0).run mixedOperations
      ⟨.empty, []⟩).any fun Q => decide (Q.shared.tables.reservations =
        [⟨⟨"18:00", 4⟩, 1, "2025-03-10", ⟨1, "Ada"⟩⟩])) = true := by
    decide +kernel
  obtain ⟨Q, ran, seen⟩ := (Option.any_eq_true _ _).mp checked
  exact ⟨Q, ran, of_decide_eq_true seen,
    resolver_admits_only_valid isoDateString .inMemory .default 0 (fun r member => by cases member)
      ran⟩

/-- **Refusals read back.**  In every interleaving, an operation whose arguments violate a
constraint has made no call, and from the text it ended with the messages of all that fails
can be read back, field by field; every other operation is one of the service's requests. -/
theorem refusals_read_back (ran : (resolver isDateString db cfg rounds).run es ⟨w, []⟩ = some Q)
    (member : proc ∈ Q.procs) :
    if proc.request.complaints isDateString = [] then
      ∃ r, proc.request.gate isDateString = .ok r ∧
        ⟨r, proc.history, proc.prog⟩ ∈ (Q.admitted (Operation.gate isDateString)).procs
    else proc.history = [] ∧ ∃ text, proc.prog = .throw (.badRequest text : Exn) ∧
      readBack text = proc.request.complaints isDateString := by
  rw [resolver_eq_behind] at ran
  have refuses := (Server.run_admitted Pool.refuses_nil ran).1
  split
  · rename_i clean
    obtain ⟨r, admitted⟩ := Operation.gate_ok clean
    exact ⟨r, admitted, List.mem_filterMap.mpr ⟨proc, member, Proc.admitted_of_ok admitted⟩⟩
  · rename_i refused
    obtain ⟨noCall, ended⟩ := refuses proc member _ (Operation.gate_error refused)
    exact ⟨noCall, _, ended, readBack_complaintText refused fun _ => Operation.legible⟩

theorem refusals_read_back_nonsense :
    nonsense.complaints isoDateString = [["Customer name is required"],
      ["date must be a valid ISO 8601 date string"],
      ["Invalid time format. Use HH:MM (24-hour format)"],
      ["guests must not be less than 1", "guests must be an integer number"]] ∧
    ∃ Q, (resolver isoDateString .inMemory .default 0).run mixedOperations ⟨.empty, []⟩ = some Q ∧
      ∀ proc ∈ Q.procs, if proc.request.complaints isoDateString = [] then
        ∃ r, proc.request.gate isoDateString = .ok r ∧
          ⟨r, proc.history, proc.prog⟩ ∈ (Q.admitted (Operation.gate isoDateString)).procs
      else proc.history = [] ∧ ∃ text, proc.prog = .throw (.badRequest text : Exn) ∧
        readBack text = proc.request.complaints isoDateString := by
  have runs : ((resolver isoDateString .inMemory .default 0).run mixedOperations
      ⟨.empty, []⟩).isSome = true := by
    decide +kernel
  obtain ⟨Q, ran⟩ := Option.isSome_iff_exists.mp runs
  exact ⟨by decide +kernel, Q, ran, fun proc member =>
    refusals_read_back isoDateString .inMemory .default 0 ran member⟩

end Runs

end RestaurantAssistant
