import RestaurantAssistant.Async.Server
import RestaurantAssistant.Database
import RestaurantAssistant.Dto
import RestaurantAssistant.Redis

/-!
# The reservation service (`reservation.service.ts`, `redis.service.ts`)

The five operations of `ReservationService` as programs over the calls they
await: repository calls and Redis commands.

Values go through Redis as JSON and come back equal; what the cache holds is a
`QueryOutput`, and a query returns whatever its key yields.  A `SCAN` loop ends
when the server says so: the programs allow `rounds` further `SCAN` calls after
the first one of an iteration, and every result is for all `rounds`.
-/

namespace RestaurantAssistant

open Awaiting Js

/-! ## Outputs -/

structure ListInfo where
  totalItems : Nat
  deriving DecidableEq

structure ReservationPaginationOutput where
  items : List Reservation
  listInfo : ListInfo
  deriving DecidableEq

structure CheckAvailabilityOutput where
  message : String
  availableSlots : List String
  deriving DecidableEq

structure CreateReservationOutput where
  message : String
  availableSlots : List String
  reservation : Option Reservation
  deriving DecidableEq

/-- What the two queries return and the cache holds. -/
inductive QueryOutput
  | reservations (out : ReservationPaginationOutput)
  | availability (out : CheckAvailabilityOutput)
  deriving DecidableEq

/-! ## The awaited calls -/

inductive Call
  | db (call : DbCall)
  | redis (call : RedisCall QueryOutput)
  deriving DecidableEq

@[reducible] def Call.Reply : Call → Type
  | .db call => call.Reply
  | .redis call => call.Reply

/-- The calls of the service and what they resolve with. -/
@[reducible] def api : Signature := ⟨Call, Call.Reply, Exn⟩

@[simp] theorem ofExcept_ok {α : Type} (a : α) :
    (Async.ofExcept (.ok a : Except Exn α) : Async api α) = .pure a := rfl

@[simp] theorem ofExcept_error {α : Type} (e : Exn) :
    (Async.ofExcept (.error e : Except Exn α) : Async api α) = .throw e := rfl

namespace customerRepo

@[simp] def findOne (name : String) : Async api (Option Customer) :=
  Async.call (σ := api) (.db (.findCustomer name))

@[simp] def save (name : String) : Async api Customer :=
  Async.call (σ := api) (.db (.saveCustomer name))

end customerRepo

namespace reservationRepo

@[simp] def find (date : String) : Async api (List Reservation) :=
  Async.call (σ := api) (.db (.findReservations date))

@[simp] def findOne (id : Int) : Async api (Option Reservation) :=
  Async.call (σ := api) (.db (.findReservation id))

@[simp] def save (entity : ReservationDraft) : Async api Reservation :=
  Async.call (σ := api) (.db (.saveReservation entity))

@[simp] def delete (id : Int) : Async api Nat :=
  Async.call (σ := api) (.db (.deleteReservation id))

@[simp] def getMany (query : ListingQuery) : Async api (List Reservation) :=
  Async.call (σ := api) (.db (.getMany query))

@[simp] def getCount (query : ListingQuery) : Async api Nat :=
  Async.call (σ := api) (.db (.getCount query))

end reservationRepo

namespace redisService

@[simp] def get (key : String) : Async api (Option QueryOutput) :=
  Async.call (σ := api) (.redis (.get key))

@[simp] def set (key : String) (value : QueryOutput) (ttl : Nat) : Async api Unit :=
  Async.call (σ := api) (.redis (.set key value ttl))

@[simp] def scan (cursor : Cursor) (pattern : String) (count : Nat) :
    Async api (Cursor × List String) :=
  Async.call (σ := api) (.redis (.scan cursor pattern count))

@[simp] def del (keys : List String) : Async api Unit :=
  Async.call (σ := api) (.redis (.del keys))

/-- One turn of the loop: a batch, its deletion, and `again` unless the cursor
is `'0'`. -/
def scanTurn (pattern : String) (cursor : Cursor) (again : Cursor → Async api Unit) :
    Async api Unit := do
  let (nextCursor, keys) ← scan cursor pattern 100
  if keys.length > 0 then del keys else pure ()
  if nextCursor = none then pure () else again nextCursor

/-- The loop from a cursor, with at most `rounds` further turns. -/
def scanFrom (pattern : String) : Nat → Cursor → Async api Unit
  | 0, cursor => scanTurn pattern cursor fun _ => .diverge
  | rounds + 1, cursor => scanTurn pattern cursor fun next => scanFrom pattern rounds next

def scanAndDelete (rounds : Nat) (pattern : String) : Async api Unit := scanFrom pattern rounds none

def clearReservationCache (rounds : Nat) : Async api Unit := do
  scanAndDelete rounds "reservations:*"
  scanAndDelete rounds "availability:*"

end redisService

/-! ## Listing reservations -/

/-- A field of an object as `JSON.stringify` sees it: an undefined one is left out. -/
def jsonField {α : Type} (name : String) (scalar : α → JsonScalar) : Arg α → JsonObject
  | .undefined => []
  | .null => [(name, .null)]
  | .given a => [(name, scalar a)]

def ReservationFilterInput.toJson (filter : ReservationFilterInput) : JsonObject :=
  jsonField "customerName" .string filter.customerName ++
  jsonField "date" .string filter.date ++
  jsonField "guests" .number filter.guests

def PaginationInput.toJson (pagination : PaginationInput) : JsonObject :=
  jsonField "page" .number pagination.page ++ jsonField "limit" .number pagination.limit

def SortInput.toJson (sort : SortInput) : JsonObject :=
  jsonField "sortBy" .string sort.sortBy ++ jsonField "order" .string sort.order

/-- The cache key of a listing. -/
def listingKey (filter : Arg ReservationFilterInput) (pagination : Arg PaginationInput)
    (sort : Arg SortInput) : String :=
  String.ofList ("reservations:".toList ++
    (Json.argText (filter.map ReservationFilterInput.toJson) ++ ':' ::
    (Json.argText (pagination.map PaginationInput.toJson) ++ ':' ::
      Json.argText (sort.map SortInput.toJson))))

/-- The query of a listing: conditions for the fields that are truthy, page 1
and 10 items by default. -/
def listingQuery (filter : Arg ReservationFilterInput) (pagination : Arg PaginationInput)
    (sort : Arg SortInput) : ListingQuery :=
  let page := (pagination.toOption.bind fun p => p.page.toOption).getD 1
  let limit := (pagination.toOption.bind fun p => p.limit.toOption).getD 10
  { customerName := filter.toOption.bind fun f => f.customerName.text
    date := filter.toOption.bind fun f => f.date.text
    guests := filter.toOption.bind fun f => f.guests.nonzero
    orderBy := sort.toOption.bind fun s => s.sortBy.text.map fun column =>
      (column, if s.order = .given "DESC" then .desc else .asc)
    skip := (page - 1) * limit
    take := limit }

def getReservations (filter : Arg ReservationFilterInput) (pagination : Arg PaginationInput)
    (sort : Arg SortInput) : Async api QueryOutput :=
  Async.tryCatch (do
    let cacheKey := listingKey filter pagination sort
    match ← redisService.get cacheKey with
    | some cachedData => pure cachedData
    | none =>
      let query := listingQuery filter pagination sort
      let items ← reservationRepo.getMany query
      let totalItems ← reservationRepo.getCount query
      let result := .reservations ⟨items, ⟨totalItems⟩⟩
      redisService.set cacheKey result 300
      pure result)
    fun _ => .throw (.internalServerError "Failed to fetch reservations" : Exn)

/-! ## Checking availability -/

structure Config where
  totalSeats : JsNumber
  slotDuration : JsNumber
  reservationDuration : JsNumber

/-- What the service takes for settings that are not configured. -/
def Config.default : Config := ⟨10, 30, 60⟩

/-- The cache key of an availability query. -/
def availabilityKey (data : CheckAvailabilityInput) : String :=
  let range := data.timeRange.toOption
  let start := data.time.text.getD ((range.map TimeRangeInput.start).getD "undefined")
  let stop := (range.bind fun r => if r.stop = "" then none else some r.stop).getD "none"
  "availability:" ++ data.date ++ ":" ++ start ++ "-" ++ stop ++ ":" ++
    String.ofList (JsNumber.integerText data.guests)

def checkAvailability (cfg : Config) (data : CheckAvailabilityInput) : Async api QueryOutput :=
  Async.tryCatch (do
    let cacheKey := availabilityKey data
    match ← redisService.get cacheKey with
    | some cachedResult => pure cachedResult
    | none =>
      let existingReservations ← reservationRepo.find data.date
      let bookings := existingReservations.map Reservation.toBooking
      match data.time.text, data.timeRange with
      | some time, _ =>
        let startTime := convertToMinutes time
        let endTime := startTime + cfg.reservationDuration
        let isAvailable :=
          isSlotAvailable bookings startTime endTime cfg.totalSeats (data.guests : JsNumber)
        let result := .availability
          { message := if isAvailable then "Time slot available" else "Time slot unavailable"
            availableSlots := if isAvailable then [time] else [] }
        redisService.set cacheKey result 300
        pure result
      | none, .given timeRange =>
        let startSlot := convertToMinutes timeRange.start / cfg.slotDuration
        let endSlot := convertToMinutes timeRange.stop / cfg.slotDuration
        match findAvailableSlots bookings startSlot endSlot cfg.slotDuration cfg.totalSeats
            (data.guests : JsNumber) cfg.reservationDuration with
        | none => .diverge
        | some availableSlots =>
          let result := .availability
            { message := if availableSlots.length > 0 then "Available slots within range"
                else "No available slots in the given range"
              availableSlots :=
                availableSlots.map fun slot => convertToTime (slot * cfg.slotDuration) }
          redisService.set cacheKey result 300
          pure result
      | none, _ =>
        pure (.availability
          { message :=
              "Invalid request: Please provide either a specific time or a time range."
            availableSlots := [] }))
    fun _ => .throw (.internalServerError "Failed to check availability" : Exn)

/-! ## Creating, cancelling and updating -/

/-- The customer of that name, created if there is none. -/
def findOrCreateCustomer (name : String) : Async api Customer := do
  match ← customerRepo.findOne name with
  | some customer => pure customer
  | none => customerRepo.save name

/-- The rest of `createReservation` once there is a customer: store the
reservation, or look for other slots. -/
def createFor (cfg : Config) (rounds : Nat) (data : CreateReservationInput) (customer : Customer) :
    Async api CreateReservationOutput := do
  let startTime := convertToMinutes data.time
  let endTime := startTime + cfg.reservationDuration
  let existingReservations ← reservationRepo.find data.date
  let bookings := existingReservations.map Reservation.toBooking
  if isSlotAvailable bookings startTime endTime cfg.totalSeats (data.guests : JsNumber) then
    let savedReservation ← reservationRepo.save
      ⟨none, some data.date, some data.time, some data.guests, customer⟩
    redisService.clearReservationCache rounds
    pure
      { message := "Reservation successfully created!"
        availableSlots := []
        reservation := some savedReservation }
  else
    match findNearestAvailableSlots bookings (startTime / cfg.slotDuration) cfg.slotDuration
        cfg.totalSeats (data.guests : JsNumber) cfg.reservationDuration with
    | none => .diverge
    | some [] => .throw (.badRequest ("No availability for " ++
        String.ofList (JsNumber.integerText data.guests) ++ " guests on " ++ data.date) : Exn)
    | some nearestSlots =>
      pure
        { message := "Requested time is unavailable. Suggested available times:"
          availableSlots := nearestSlots.map fun slot => convertToTime (slot * cfg.slotDuration)
          reservation := none }

/-- The `catch` of `createReservation`. -/
def createFailed {α : Type} : Exn → Async api α
  | .badRequest message => .throw (.badRequest message : Exn)
  | _ => .throw (.internalServerError "Failed to create reservation" : Exn)

def createReservation (cfg : Config) (rounds : Nat) (data : CreateReservationInput) :
    Async api CreateReservationOutput :=
  Async.tryCatch (do
    let customer ← findOrCreateCustomer data.customerName
    createFor cfg rounds data customer)
    createFailed

def cancelReservation (rounds : Nat) (id : Int) : Async api Bool :=
  Async.tryCatch (do
    let affected ← reservationRepo.delete id
    if affected = 0 then
      .throw (.notFound ("Reservation with ID " ++ String.ofList (JsNumber.integerText id) ++
        " not found") : Exn)
    else
      redisService.clearReservationCache rounds
      pure true)
    fun _ => .throw (.internalServerError "Failed to cancel reservation" : Exn)

/-- The entity after `Object.assign(reservation, data)`.  The input's
`customerName` is no column of the entity and is not saved. -/
def assign (reservation : Reservation) (data : UpdateReservationInput) : ReservationDraft where
  id := some data.id
  date := data.date.assign reservation.date
  time := data.time.assign reservation.time
  guests := data.guests.assign reservation.guests
  customer := reservation.customer

/-- The `catch` of `updateReservation`. -/
def updateFailed {α : Type} : Exn → Async api α
  | .badRequest message => .throw (.badRequest message : Exn)
  | .notFound message => .throw (.notFound message : Exn)
  | _ => .throw (.internalServerError "Failed to update reservation" : Exn)

def updateReservation (rounds : Nat) (data : UpdateReservationInput) : Async api Reservation :=
  Async.tryCatch (do
    match ← reservationRepo.findOne data.id with
    | none => .throw (.notFound ("Reservation with ID " ++
        String.ofList (JsNumber.integerText data.id) ++ " not found") : Exn)
    | some reservation =>
      redisService.clearReservationCache rounds
      reservationRepo.save (assign reservation data))
    updateFailed

/-! ## Requests -/

inductive Query
  | getReservations (filter : Arg ReservationFilterInput) (pagination : Arg PaginationInput)
      (sort : Arg SortInput)
  | checkAvailability (data : CheckAvailabilityInput)
  deriving DecidableEq

inductive Mutation
  | createReservation (data : CreateReservationInput)
  | cancelReservation (id : Int)
  | updateReservation (data : UpdateReservationInput)
  deriving DecidableEq

inductive Request
  | query (q : Query)
  | mutation (m : Mutation)
  deriving DecidableEq

inductive Response
  | queried (out : QueryOutput)
  | created (out : CreateReservationOutput)
  | cancelled (done : Bool)
  | updated (reservation : Reservation)
  deriving DecidableEq

def Query.handle (cfg : Config) : Query → Async api QueryOutput
  | .getReservations filter pagination sort =>
    RestaurantAssistant.getReservations filter pagination sort
  | .checkAvailability data => RestaurantAssistant.checkAvailability cfg data

def Mutation.handle (cfg : Config) (rounds : Nat) : Mutation → Async api Response
  | .createReservation data =>
    .created <$> RestaurantAssistant.createReservation cfg rounds data
  | .cancelReservation id => .cancelled <$> RestaurantAssistant.cancelReservation rounds id
  | .updateReservation data => .updated <$> RestaurantAssistant.updateReservation rounds data

/-- The program a request runs. -/
def Request.handle (cfg : Config) (rounds : Nat) : Request → Async api Response
  | .query q => .queried <$> q.handle cfg
  | .mutation m => m.handle cfg rounds

/-- The cache key of a query. -/
def Query.key : Query → String
  | .getReservations filter pagination sort => listingKey filter pagination sort
  | .checkAvailability data => availabilityKey data

/-- Are the times of the query as its input type declares them? -/
def Query.conform : Query → Bool
  | .getReservations _ _ _ => true
  | .checkAvailability data => data.timed

end RestaurantAssistant
