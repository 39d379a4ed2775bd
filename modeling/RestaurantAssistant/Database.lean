import RestaurantAssistant.ReservationUtils

/-!
# The tables behind the repositories (`reservation.entity.ts`, `customer.entity.ts`)

The reservations and customers tables, and what each repository call does to
them: every call is atomic.  A reservation carries its customer as the eager
relation loads it; no code changes or removes a customer.

The listing query (filters, sorting, page) is handed to the database as a
`ListingQuery`.  How the database evaluates it is a parameter `QueryEngine`:
the rows and the count are functions of the query and of the reservations.
-/

namespace RestaurantAssistant

/-- What repository calls and handlers throw. -/
inductive Exn
  | badRequest (message : String)
  | notFound (message : String)
  | internalServerError (message : String)
  /-- A statement the database refuses. -/
  | queryFailed
  deriving DecidableEq

structure Customer where
  id : Int
  name : String
  deriving DecidableEq

structure Reservation extends Booking where
  id : Int
  date : String
  customer : Customer
  deriving DecidableEq

/-- An entity handed to `reservationRepo.save`: without an `id` it is new, and
columns may hold `null`. -/
structure ReservationDraft where
  id : Option Int
  date : Option String
  time : Option String
  guests : Option Int
  customer : Customer
  deriving DecidableEq

inductive SortOrder
  | asc
  | desc
  deriving DecidableEq

/-- The query `getReservations` builds. -/
structure ListingQuery where
  customerName : Option String
  date : Option String
  guests : Option Int
  orderBy : Option (String × SortOrder)
  skip : Int
  take : Int
  deriving DecidableEq

/-- The database's evaluation of a listing query. -/
structure QueryEngine where
  getMany : ListingQuery → List Reservation → List Reservation
  getCount : ListingQuery → List Reservation → Nat

/-- Does the row meet the conditions of the query? -/
def ListingQuery.accepts (query : ListingQuery) (r : Reservation) : Bool :=
  query.customerName.all (fun name => r.customer.name = name) &&
  query.date.all (fun date => r.date = date) &&
  query.guests.all (fun guests => r.guests = guests)

/-- A database that answers queries without an order, rows in order of insertion. -/
def QueryEngine.inMemory : QueryEngine where
  getMany query rows := ((rows.filter query.accepts).drop query.skip.toNat).take query.take.toNat
  getCount query rows := (rows.filter query.accepts).length

/-- The tables and the sequences of their generated ids. -/
structure Tables where
  reservations : List Reservation
  customers : List Customer
  nextReservation : Int
  nextCustomer : Int
  deriving DecidableEq

def Tables.empty : Tables := ⟨[], [], 1, 1⟩

/-- The calls on `customerRepo` and `reservationRepo`. -/
inductive DbCall
  | findCustomer (name : String)
  | saveCustomer (name : String)
  | findReservations (date : String)
  | findReservation (id : Int)
  | saveReservation (entity : ReservationDraft)
  | deleteReservation (id : Int)
  | getMany (query : ListingQuery)
  | getCount (query : ListingQuery)
  deriving DecidableEq

@[reducible] def DbCall.Reply : DbCall → Type
  | .findCustomer _ => Option Customer
  | .saveCustomer _ => Customer
  | .findReservations _ => List Reservation
  | .findReservation _ => Option Reservation
  | .saveReservation _ => Reservation
  | .deleteReservation _ => Nat
  | .getMany _ => List Reservation
  | .getCount _ => Nat

/-- Does the call write the reservations table? -/
def DbCall.writes : DbCall → Bool
  | .saveReservation _ => true
  | .deleteReservation _ => true
  | _ => false

namespace Tables

/-- The reservations with the given date text. -/
def on (T : Tables) (date : String) : List Reservation :=
  T.reservations.filter fun r => r.date = date

/-- The reservation with the given id. -/
def find (T : Tables) (id : Int) : Option Reservation :=
  T.reservations.find? fun r => r.id = id

/-- Insert a reservation under the next generated id. -/
def insert (T : Tables) (date time : String) (guests : Int) (customer : Customer) : Tables :=
  { T with
    reservations := T.reservations ++ [⟨⟨time, guests⟩, T.nextReservation, date, customer⟩]
    nextReservation := T.nextReservation + 1 }

/-- Write a reservation to the row with its id, inserting the row if there is
none. -/
def put (T : Tables) (r : Reservation) : Tables :=
  { T with
    reservations :=
      if T.reservations.any (fun row => row.id = r.id) then
        T.reservations.map fun row => if row.id = r.id then r else row
      else T.reservations ++ [r] }

def remove (T : Tables) (id : Int) : Tables :=
  { T with reservations := T.reservations.filter fun r => r.id ≠ id }

def addCustomer (T : Tables) (name : String) : Tables :=
  { T with
    customers := T.customers ++ [⟨T.nextCustomer, name⟩]
    nextCustomer := T.nextCustomer + 1 }

/-- Outcome and effect of a repository call.  The columns of a reservation are
not nullable. -/
def answer (db : QueryEngine) (T : Tables) : (call : DbCall) → Except Exn call.Reply × Tables
  | .findCustomer name => (.ok (T.customers.find? fun c => c.name = name), T)
  | .saveCustomer name => (.ok ⟨T.nextCustomer, name⟩, T.addCustomer name)
  | .findReservations date => (.ok (T.on date), T)
  | .findReservation id => (.ok (T.find id), T)
  | .saveReservation ⟨none, some date, some time, some guests, customer⟩ =>
    (.ok ⟨⟨time, guests⟩, T.nextReservation, date, customer⟩, T.insert date time guests customer)
  | .saveReservation ⟨some id, some date, some time, some guests, customer⟩ =>
    (.ok ⟨⟨time, guests⟩, id, date, customer⟩, T.put ⟨⟨time, guests⟩, id, date, customer⟩)
  | .saveReservation _ => (.error .queryFailed, T)
  | .deleteReservation id => (.ok (T.reservations.countP fun r => r.id = id), T.remove id)
  | .getMany query => (.ok (db.getMany query T.reservations), T)
  | .getCount query => (.ok (db.getCount query T.reservations), T)

end Tables

end RestaurantAssistant
