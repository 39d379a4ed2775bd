import RestaurantAssistant.Async.Embedding
import RestaurantAssistant.Js.JsonValue
import RestaurantAssistant.Loops

/-!
# The cache holds text (`redis.service.ts`)

`RedisService.set` writes `JSON.stringify(value)` and `RedisService.get` reads
`JSON.parse(text)`: nothing between the two checks that a text under a key is the answer
of a query.  Here the service runs over a Redis of strings, and a query returns whatever
value its key yields.

As long as only the service writes the cache, this is the service over a Redis of answers,
event by event and in every order of events (`textServer_couples`).  What a query makes of
any other text under its key is `eval_queryText`.
-/

namespace RestaurantAssistant

open Awaiting Js

/-! ## Answers as JSON -/

def Customer.toJson (customer : Customer) : JsonValue :=
  .object [("id", .number customer.id), ("name", .string customer.name)]

def Reservation.toJson (r : Reservation) : JsonValue :=
  .object [("id", .number r.id), ("date", .string r.date), ("time", .string r.time),
    ("guests", .number r.guests), ("customer", r.customer.toJson)]

def QueryOutput.toJson : QueryOutput → JsonValue
  | .reservations out =>
    .object [("items", .array (out.items.map Reservation.toJson)),
      ("listInfo", .object [("totalItems", .number out.listInfo.totalItems)])]
  | .availability out =>
    .object [("message", .string out.message),
      ("availableSlots", .array (out.availableSlots.map .string))]

/-- A whole number. -/
def JsonValue.toInt? : JsonValue → Option Int
  | .number q => if q.isInt then some q.num else none
  | _ => none

def JsonValue.toText? : JsonValue → Option String
  | .string s => some s
  | _ => none

def Customer.ofJson : JsonValue → Option Customer
  | .object [("id", id), ("name", name)] => do
    return ⟨← JsonValue.toInt? id, ← JsonValue.toText? name⟩
  | _ => none

def Reservation.ofJson : JsonValue → Option Reservation
  | .object [("id", id), ("date", date), ("time", time), ("guests", guests),
      ("customer", customer)] => do
    return ⟨⟨← JsonValue.toText? time, ← JsonValue.toInt? guests⟩, ← JsonValue.toInt? id,
      ← JsonValue.toText? date, ← Customer.ofJson customer⟩
  | _ => none

/-- The answer a JSON value is, if it is one. -/
def QueryOutput.ofJson : JsonValue → Option QueryOutput
  | .object [("items", .array items), ("listInfo", .object [("totalItems", totalItems)])] => do
    return .reservations ⟨← items.mapM Reservation.ofJson, ⟨(← JsonValue.toInt? totalItems).toNat⟩⟩
  | .object [("message", message), ("availableSlots", .array availableSlots)] => do
    return .availability ⟨← JsonValue.toText? message, ← availableSlots.mapM JsonValue.toText?⟩
  | _ => none

theorem Customer.ofJson_toJson (customer : Customer) :
    Customer.ofJson customer.toJson = some customer := by
  simp [Customer.toJson, Customer.ofJson, JsonValue.toInt?, JsonValue.toText?, Rat.isInt]

theorem Reservation.ofJson_toJson (r : Reservation) : Reservation.ofJson r.toJson = some r := by
  simp [Reservation.toJson, Reservation.ofJson, JsonValue.toInt?, JsonValue.toText?, Rat.isInt,
    Customer.ofJson_toJson]

theorem mapM_of_inverse {α β : Type} {f : α → β} {g : β → Option α}
    (inverse : ∀ a, g (f a) = some a)
    (l : List α) : (l.map f).mapM g = some l := by
  induction l with
  | nil => rfl
  | cons a l ih => simp [inverse, ih]

theorem QueryOutput.ofJson_toJson (out : QueryOutput) :
    QueryOutput.ofJson out.toJson = some out := by
  cases out with
  | reservations out =>
    simp [QueryOutput.toJson, QueryOutput.ofJson, JsonValue.toInt?, Rat.isInt,
      mapM_of_inverse Reservation.ofJson_toJson]
  | availability out =>
    simp [QueryOutput.toJson, QueryOutput.ofJson, JsonValue.toText?,
      mapM_of_inverse (f := JsonValue.string) (g := JsonValue.toText?) fun _ => rfl]

theorem plain_toJson (out : QueryOutput) : out.toJson.Plain := by
  have row : ∀ r : Reservation, r.toJson.Plain := by
    intro r
    simp [Reservation.toJson, Customer.toJson, JsonValue.Plain, JsonValue.FieldsPlain, Rat.isInt]
  cases out with
  | reservations out =>
    simp [QueryOutput.toJson, JsonValue.Plain, JsonValue.FieldsPlain, JsonValue.allPlain_iff, row,
      Rat.isInt]
  | availability out =>
    simp [QueryOutput.toJson, JsonValue.Plain, JsonValue.FieldsPlain, JsonValue.allPlain_iff]

/-- The text `RedisService.set` writes for an answer. -/
def QueryOutput.toText (out : QueryOutput) : String := out.toJson.stringify

/-! ## The service over a Redis of strings -/

inductive TextCall
  | db (call : DbCall)
  | redis (call : RedisCall String)
  deriving DecidableEq

@[reducible] def TextCall.Reply : TextCall → Type
  | .db call => call.Reply
  | .redis call => call.Reply

@[reducible] def textApi : Signature := ⟨TextCall, TextCall.Reply, Exn⟩

namespace RedisService

/-- `JSON.stringify(value)` under the key. -/
def set (key : String) (value : JsonValue) (ttl : Nat) : Async textApi Unit :=
  Async.call (σ := textApi) (.redis (.set key value.stringify ttl))

/-- What a text is read as: no text, an empty one and one that is no JSON give `null`. -/
def read : Option String → JsonValue
  | none => .null
  | some value => if value = "" then .null else (JsonValue.parse value).getD .null

def get (key : String) : Async textApi JsonValue := do
  let value ← Async.call (σ := textApi) (.redis (.get key))
  pure (read value)

end RedisService

def getReservationsText (filter : Arg ReservationFilterInput) (pagination : Arg PaginationInput)
    (sort : Arg SortInput) : Async textApi JsonValue :=
  Async.tryCatch (do
    let cacheKey := listingKey filter pagination sort
    let cachedData ← RedisService.get cacheKey
    if cachedData.truthy then pure cachedData
    else
      let query := listingQuery filter pagination sort
      let items ← Async.call (σ := textApi) (.db (.getMany query))
      let totalItems ← Async.call (σ := textApi) (.db (.getCount query))
      let result := (QueryOutput.reservations ⟨items, ⟨totalItems⟩⟩).toJson
      RedisService.set cacheKey result 300
      pure result)
    fun _ => .throw (.internalServerError "Failed to fetch reservations" : Exn)

def checkAvailabilityText (cfg : Config) (data : CheckAvailabilityInput) :
    Async textApi JsonValue :=
  Async.tryCatch (do
    let cacheKey := availabilityKey data
    let cachedResult ← RedisService.get cacheKey
    if cachedResult.truthy then pure cachedResult
    else
      let existingReservations ← Async.call (σ := textApi) (.db (.findReservations data.date))
      let bookings := existingReservations.map Reservation.toBooking
      match data.time.text, data.timeRange with
      | some time, _ =>
        let startTime := convertToMinutes time
        let endTime := startTime + cfg.reservationDuration
        let isAvailable :=
          isSlotAvailable bookings startTime endTime cfg.totalSeats (data.guests : JsNumber)
        let result := (QueryOutput.availability
          { message := if isAvailable then "Time slot available" else "Time slot unavailable"
            availableSlots := if isAvailable then [time] else [] }).toJson
        RedisService.set cacheKey result 300
        pure result
      | none, .given timeRange =>
        let startSlot := convertToMinutes timeRange.start / cfg.slotDuration
        let endSlot := convertToMinutes timeRange.stop / cfg.slotDuration
        match findAvailableSlots bookings startSlot endSlot cfg.slotDuration cfg.totalSeats
            (data.guests : JsNumber) cfg.reservationDuration with
        | none => .diverge
        | some availableSlots =>
          let result := (QueryOutput.availability
            { message := if availableSlots.length > 0 then "Available slots within range"
                else "No available slots in the given range"
              availableSlots :=
                availableSlots.map fun slot => convertToTime (slot * cfg.slotDuration) }).toJson
          RedisService.set cacheKey result 300
          pure result
      | none, _ =>
        pure (QueryOutput.availability
          { message :=
              "Invalid request: Please provide either a specific time or a time range."
            availableSlots := [] }).toJson)
    fun _ => .throw (.internalServerError "Failed to check availability" : Exn)

def Query.handleText (cfg : Config) : Query → Async textApi JsonValue
  | .getReservations filter pagination sort => getReservationsText filter pagination sort
  | .checkAvailability data => checkAvailabilityText cfg data

/-! ## What the texts stand for -/

structure TextWorld where
  tables : Tables
  redis : Redis String
  deriving DecidableEq

def TextWorld.answer (db : QueryEngine) : Choice → (call : TextCall) → TextWorld →
    Option (Except Exn call.Reply × TextWorld)
  | .reply, .db call, w =>
    some ((w.tables.answer db call).1, { w with tables := (w.tables.answer db call).2 })
  | .batch _ _, .db _, _ => none
  | c, .redis call, w =>
    (w.redis.answer c call).map fun (reply, R) => (.ok reply, { w with redis := R })

def textInterp (db : QueryEngine) : Interp textApi TextWorld Choice := ⟨TextWorld.answer db⟩

def Redis.map {V W : Type} (f : V → W) (R : Redis V) : Redis W :=
  ⟨R.entries.map fun e => ⟨e.key, f e.value, e.born⟩, R.clock⟩

def World.toText (w : World) : TextWorld := ⟨w.tables, w.redis.map QueryOutput.toText⟩

def Call.toText : Call → TextCall
  | .db call => .db call
  | .redis (.get key) => .redis (.get key)
  | .redis (.set key value ttl) => .redis (.set key value.toText ttl)
  | .redis (.scan cursor pattern count) => .redis (.scan cursor pattern count)
  | .redis (.del keys) => .redis (.del keys)

def outcomeText : (call : Call) → Except Exn call.Reply → Except Exn call.toText.Reply
  | .db _, r => r
  | .redis (.get _), r => r.map (Option.map QueryOutput.toText)
  | .redis (.set _ _ _), r => r
  | .redis (.scan _ _ _), r => r
  | .redis (.del _), r => r

/-- The outcome a text-level outcome stands for. -/
def outcomeOfText : (call : Call) → Except Exn call.toText.Reply → Except Exn call.Reply
  | .db _, r => r
  | .redis (.get _), r => r.map fun text => QueryOutput.ofJson (RedisService.read text)
  | .redis (.set _ _ _), r => r
  | .redis (.scan _ _ _), r => r
  | .redis (.del _), r => r

def asText : Embedding api textApi World TextWorld where
  call := Call.toText
  outcome := outcomeText
  exn e := e
  state := World.toText

/-! ## Requests -/

inductive TextResponse
  | queried (value : JsonValue)
  | created (out : CreateReservationOutput)
  | cancelled (done : Bool)
  | updated (reservation : Reservation)

def Response.toText : Response → TextResponse
  | .queried out => .queried out.toJson
  | .created out => .created out
  | .cancelled done => .cancelled done
  | .updated reservation => .updated reservation

/-- The mutations send the cache `SCAN` and `DEL` only. -/
def Mutation.handleText (cfg : Config) (rounds : Nat) : Mutation → Async textApi TextResponse
  | .createReservation data =>
    .created <$> asText.send outcomeOfText (RestaurantAssistant.createReservation cfg rounds data)
  | .cancelReservation id =>
    .cancelled <$> asText.send outcomeOfText (RestaurantAssistant.cancelReservation rounds id)
  | .updateReservation data =>
    .updated <$> asText.send outcomeOfText (RestaurantAssistant.updateReservation rounds data)

def Request.handleText (cfg : Config) (rounds : Nat) : Request → Async textApi TextResponse
  | .query q => .queried <$> q.handleText cfg
  | .mutation m => m.handleText cfg rounds

def textServer (db : QueryEngine) (cfg : Config) (rounds : Nat) :
    Server textApi Request TextWorld Choice String TextResponse where
  interp := textInterp db
  handle := Request.handleText cfg rounds
  env key w := { w with redis := w.redis.expire key }

/-! ## The texts of answers -/

/-- **Round trip.**  What `set` writes, `get` reads. -/
theorem read_stringify {value : JsonValue} (plain : value.Plain) :
    RedisService.read (some value.stringify) = value := by
  have nonempty : value.stringify ≠ "" := by
    obtain ⟨c, cs, same, -⟩ := JsonValue.text_eq_cons plain
    intro empty
    have chars := congrArg String.toList empty
    rw [JsonValue.stringify, String.toList_ofList, same] at chars
    cases chars
  rw [RedisService.read, if_neg nonempty, JsonValue.parse_stringify plain, Option.getD_some]

theorem truthy_toJson (out : QueryOutput) : out.toJson.truthy = true := by
  cases out <;> rfl

theorem outcomeOfText_outcomeText (call : Call) (r : Except Exn call.Reply) :
    outcomeOfText call (outcomeText call r) = r := by
  rcases call with call | ⟨key⟩ | ⟨key, value, ttl⟩ | ⟨cursor, pattern, count⟩ | ⟨keys⟩
  · rfl
  · cases r with
    | error e => rfl
    | ok found =>
      cases found with
      | none => rfl
      | some out =>
        have back : QueryOutput.ofJson (RedisService.read (some out.toText)) = some out := by
          rw [QueryOutput.toText, read_stringify (plain_toJson out), QueryOutput.ofJson_toJson]
        exact congrArg Except.ok back
  · rfl
  · rfl
  · rfl

/-! ## The coupling -/

section MapRedis

variable {V W : Type} {f : V → W} {R : Redis V}

theorem Redis.map_get (key : String) : (R.map f).get key = (R.get key).map f := by
  simp only [Redis.get, Redis.map, List.find?_map, Option.map_map]
  rfl

theorem Redis.map_set (key : String) (value : V) :
    (R.map f).set key (f value) = (R.set key value).map f := by
  have present : ((R.map f).entries.any fun e => e.key = key) =
      R.entries.any fun e => e.key = key := by
    simp only [Redis.map, List.any_map]
    rfl
  unfold Redis.set
  rw [present]
  split
  · simp only [Redis.map, List.map_map]
    congr 1
    refine List.map_congr_left fun e _ => ?_
    simp only [Function.comp_apply]
    split <;> rfl
  · simp [Redis.map]

theorem Redis.map_del (keys : List String) : (R.map f).del keys = (R.del keys).map f := by
  simp only [Redis.del, Redis.map, List.filter_map]
  rfl

theorem Redis.map_owed (pattern : String) (cursor : Cursor) :
    (R.map f).owed pattern cursor = R.owed pattern cursor := by
  cases cursor with
  | none =>
    simp only [Redis.owed, Redis.map, List.filter_map, List.map_map]
    rfl
  | some owed => rfl

theorem Redis.map_live (k : String × Nat) : (R.map f).live k = R.live k := by
  simp only [Redis.live, Redis.map, List.any_map]
  rfl

end MapRedis

theorem asText_carries (db : QueryEngine) : asText.Carries (interp db) (textInterp db) := by
  intro c call w
  rcases call with call | ⟨key⟩ | ⟨key, value, ttl⟩ | ⟨cursor, pattern, count⟩ | ⟨keys⟩
  · cases c <;> rfl
  · cases c with
    | reply =>
      change some (Except.ok ((w.redis.map QueryOutput.toText).get key), w.toText) = _
      rw [Redis.map_get]
      rfl
    | batch last keys => rfl
  · cases c with
    | reply =>
      change some (Except.ok (), TextWorld.mk w.tables
        ((w.redis.map QueryOutput.toText).set key value.toText)) = _
      rw [Redis.map_set]
      rfl
    | batch last keys => rfl
  · cases c with
    | reply => rfl
    | batch last keys =>
      change ((w.redis.map QueryOutput.toText).answer (.batch last keys)
          (.scan cursor pattern count)).map _ =
        ((w.redis.answer (.batch last keys) (.scan cursor pattern count)).map _).map _
      simp only [Redis.answer, Redis.map_owed, Redis.map_live]
      split <;> rfl
  · cases c with
    | reply =>
      change some (Except.ok (), TextWorld.mk w.tables
        ((w.redis.map QueryOutput.toText).del keys)) = _
      rw [Redis.map_del]
      rfl
    | batch last keys => rfl

/-! ### The queries, step by step -/

theorem follows_get (key : String) :
    asText.Follows (fun found => (found.map QueryOutput.toJson).getD .null) (redisService.get key)
      (RedisService.get key) := by
  refine .await fun r => ?_
  cases r with
  | error e => exact .throw e
  | ok found =>
    cases found with
    | none => exact .pure none
    | some out =>
      have value := read_stringify (plain_toJson out)
      change asText.Follows _ (.pure (some out)) (.pure (RedisService.read (some out.toText)))
      rw [QueryOutput.toText, value]
      exact .pure (some out)

theorem follows_set (key : String) (out : QueryOutput) (ttl : Nat) :
    asText.Follows id (redisService.set key out ttl) (RedisService.set key out.toJson ttl) := by
  refine .await fun r => ?_
  cases r with
  | error e => exact .throw e
  | ok done => exact .pure done

theorem follows_db (call : DbCall) :
    asText.Follows id (Async.call (σ := api) (.db call))
      (Async.call (σ := textApi) (.db call)) := by
  refine .await fun r => ?_
  cases r with
  | error e => exact .throw e
  | ok reply => exact .pure reply

theorem follows_store (key : String) (out : QueryOutput) :
    asText.Follows QueryOutput.toJson (do redisService.set key out 300; pure out)
      (do RedisService.set key out.toJson 300; pure out.toJson) :=
  (follows_set key out 300).bind fun _ => .pure out

theorem follows_query (cfg : Config) (q : Query) :
    asText.Follows QueryOutput.toJson (q.handle cfg) (q.handleText cfg) := by
  cases q with
  | getReservations filter pagination sort =>
    refine .tryCatch (.bind (follows_get _) fun found => ?_) fun e => .throw _
    cases found with
    | some out =>
      change asText.Follows _ (.pure out) (if out.toJson.truthy then _ else _)
      rw [truthy_toJson, if_pos rfl]
      exact .pure out
    | none =>
      let query := listingQuery filter pagination sort
      refine .bind (follows_db (.getMany query)) fun items => ?_
      refine .bind (follows_db (.getCount query)) fun totalItems => ?_
      exact follows_store _ _
  | checkAvailability data =>
    refine .tryCatch (.bind (follows_get _) fun found => ?_) fun e => .throw _
    cases found with
    | some out =>
      change asText.Follows _ (.pure out) (if out.toJson.truthy then _ else _)
      rw [truthy_toJson, if_pos rfl]
      exact .pure out
    | none =>
      refine .bind (follows_db (.findReservations data.date)) fun rows => ?_
      rcases data.time.text with _ | time
      · rcases data.timeRange with _ | _ | range
        · exact .pure _
        · exact .pure _
        · simp only [id_eq]
          generalize findAvailableSlots _ _ _ _ _ _ _ = slots
          cases slots with
          | none => exact .diverge
          | some slots => exact follows_store _ _
      · exact follows_store _ _

theorem follows_mutation (cfg : Config) (rounds : Nat) (m : Mutation) :
    asText.Follows Response.toText (m.handle cfg rounds) (m.handleText cfg rounds) := by
  cases m with
  | createReservation data =>
    exact (Embedding.follows_send outcomeOfText_outcomeText).map fun _ => rfl
  | cancelReservation id =>
    exact (Embedding.follows_send outcomeOfText_outcomeText).map fun _ => rfl
  | updateReservation data =>
    exact (Embedding.follows_send outcomeOfText_outcomeText).map fun _ => rfl

/-- The service over texts is the service over answers. -/
theorem textServer_couples (db : QueryEngine) (cfg : Config) (rounds : Nat) :
    asText.Couples Response.toText (server db cfg rounds) (textServer db cfg rounds) where
  carries := asText_carries db
  handle r := by
    cases r with
    | query q => exact (follows_query cfg q).map fun _ => rfl
    | mutation m => exact follows_mutation cfg rounds m
  env key w := by
    change TextWorld.mk w.tables ((w.redis.map QueryOutput.toText).expire key) = _
    rw [Redis.expire, Redis.map_del]
    rfl

/-- **The cache as text.**  Whatever requests arrive, in every order of their steps, of the
server's choices and of expiring entries: the service over texts can do what the service
over answers can, and after it holds the texts of the same answers under the same keys,
with every request at the same call or ended with the same response. -/
theorem textServer_lockstep (db : QueryEngine) (cfg : Config) (rounds : Nat) (w : World)
    (es : List (Event Request Choice String)) :
    ((textServer db cfg rounds).run es ⟨w.toText, []⟩).map Pool.view =
      ((server db cfg rounds).run es ⟨w, []⟩).map fun P =>
        (P.shared.toText, P.procs.map fun proc => (proc.request, proc.prog.next?.map Call.toText,
          proc.prog.outcome?.map (Except.map Response.toText))) := by
  have results : asText.result Response.toText = Except.map Response.toText := by
    funext out
    cases out <;> rfl
  rw [← results]
  exact Embedding.run_view (textServer_couples db cfg rounds) es w

/-! ## Texts from elsewhere -/

theorem Redis.get_set {V : Type} {R : Redis V} {key key' : String} {value : V} :
    (R.set key value).get key' = if key' = key then some value else R.get key' := by
  unfold Redis.set
  split
  · rename_i present
    simp only [Redis.get, List.find?_map]
    have keys : ((fun e : Entry V => decide (e.key = key')) ∘
        fun e => if e.key = key then { e with value } else e) = fun e => decide (e.key = key') := by
      funext e
      simp only [Function.comp_apply]
      split <;> rfl
    rw [keys]
    cases found : R.entries.find? fun e => e.key = key' with
    | none =>
      have other : key' ≠ key := by
        rintro rfl
        obtain ⟨e, member, same⟩ := List.any_eq_true.mp present
        exact List.find?_eq_none.mp found e member same
      rw [if_neg other]
      rfl
    | some e =>
      have named : e.key = key' := by simpa using List.find?_some found
      simp only [Option.map_some, named]
      split <;> rfl
  · rename_i absent
    simp only [Redis.get, List.find?_append]
    by_cases same : key' = key
    · have missing : R.entries.find? (fun e => e.key = key') = none := by
        rw [List.find?_eq_none]
        intro e member named
        exact absent (List.any_eq_true.mpr ⟨e, member, by simpa [same] using named⟩)
      rw [missing, if_pos same]
      simp [same]
    · have new : [Entry.mk key value R.clock].find? (fun e => e.key = key') = none := by
        simpa using fun named => same named.symm
      rw [new, Option.or_none, if_neg same]

section EvalText

variable {db : QueryEngine} {cfg : Config} {α : Type} {w w' : TextWorld} {out : Except Exn α}

theorem evalText_reply {call : TextCall} {k : Except Exn call.Reply → Async textApi α}
    {r₀ : Except Exn call.Reply} {w₀ : TextWorld}
    (one : (textInterp db).answer .reply call w = some (r₀, w₀))
    (none : ∀ last keys, (textInterp db).answer (.batch last keys) call w = none) :
    Eval (textInterp db) (.await call k) w out w' ↔ Eval (textInterp db) (k r₀) w₀ out w' := by
  rw [Eval.await_iff]
  constructor
  · intro run
    obtain ⟨c, r, v, answered, rest⟩ := run
    cases c with
    | reply =>
      rw [one] at answered
      cases answered
      exact rest
    | batch last keys =>
      rw [none] at answered
      cases answered
  · intro rest
    exact ⟨.reply, _, _, one, rest⟩

@[simp] theorem evalText_db {call : DbCall} {k : Except Exn call.Reply → Async textApi α} :
    Eval (textInterp db) (.await (.db call) k) w out w' ↔
      Eval (textInterp db) (k (w.tables.answer db call).1)
        { w with tables := (w.tables.answer db call).2 } out w' :=
  evalText_reply rfl fun _ _ => rfl

@[simp] theorem evalText_get {key : String} {k : Except Exn (Option String) → Async textApi α} :
    Eval (textInterp db) (.await (.redis (.get key)) k) w out w' ↔
      Eval (textInterp db) (k (.ok (w.redis.get key))) w out w' :=
  evalText_reply rfl fun _ _ => rfl

@[simp] theorem evalText_set {key value : String} {ttl : Nat}
    {k : Except Exn Unit → Async textApi α} :
    Eval (textInterp db) (.await (.redis (.set key value ttl)) k) w out w' ↔
      Eval (textInterp db) (k (.ok ())) { w with redis := w.redis.set key value } out w' :=
  evalText_reply rfl fun _ _ => rfl

@[simp] theorem ofExcept_text {β : Type} (b : β) :
    (Async.ofExcept (.ok b : Except Exn β) : Async textApi β) = .pure b := rfl

/-- The steps of a query after a miss: store the answer and return it. -/
theorem eval_storeText {key : String} {answer : QueryOutput} {hit : Prop}
    {h : Exn → Async textApi JsonValue} {out : Except Exn JsonValue} :
    Eval (textInterp db)
        ((RedisService.set key answer.toJson 300 >>= fun _ => .pure answer.toJson).tryCatch h)
        w out w' ↔
      false = true ∧ hit ∨ True ∧ ∃ found, some answer = some found ∧ out = .ok found.toJson ∧
        w' = { w with redis := w.redis.set key found.toText } := by
  simp only [RedisService.set, Async.call, Async.await_bind, Async.tryCatch_await, evalText_set,
    ofExcept_text, Async.pure_bind, Async.tryCatch_pure, Eval.pure_iff]
  simp [QueryOutput.toText]

/-- A query over any cache: a truthy value under its key is the answer, unchecked; anything
else is a miss, and the fresh answer takes its place. -/
theorem eval_queryText {q : Query} (conform : q.conform = true) {out : Except Exn JsonValue} :
    Eval (textInterp db) (q.handleText cfg) w out w' ↔
      ((RedisService.read (w.redis.get q.key)).truthy = true ∧
        out = .ok (RedisService.read (w.redis.get q.key)) ∧ w' = w) ∨
      ((RedisService.read (w.redis.get q.key)).truthy = false ∧
        ∃ answer, fresh db cfg w.tables q = some answer ∧ out = .ok answer.toJson ∧
          w' = { w with redis := w.redis.set q.key answer.toText }) := by
  cases q with
  | getReservations filter pagination sort =>
    simp only [Query.handleText, getReservationsText, RedisService.get, Query.key, Async.call,
      Async.await_bind, Async.tryCatch_await, evalText_get, ofExcept_text, Async.pure_bind,
      Async.pure_eq]
    generalize RedisService.read (w.redis.get (listingKey filter pagination sort)) = value
    cases truthy : value.truthy with
    | true => simp [Eval.pure_iff]
    | false =>
      simp only [if_neg Bool.false_ne_true, Async.tryCatch_await, evalText_db,
        Tables.answer, ofExcept_text, Async.pure_bind, fresh_eq, Query.answer]
      exact eval_storeText
  | checkAvailability data =>
    simp only [Query.handleText, checkAvailabilityText, RedisService.get, Query.key, Async.call,
      Async.await_bind, Async.tryCatch_await, evalText_get, ofExcept_text, Async.pure_bind,
      Async.pure_eq]
    generalize RedisService.read (w.redis.get (availabilityKey data)) = value
    cases truthy : value.truthy with
    | true => simp [Eval.pure_iff]
    | false =>
      simp only [if_neg Bool.false_ne_true, Async.tryCatch_await, evalText_db,
        Tables.answer, ofExcept_text, Async.pure_bind, fresh_availability, availabilityOf,
        Tables.bookingsOn]
      rcases data.timed_cases conform with ⟨time, given, valid, _⟩ | ⟨range, absent, given, _⟩
      · rw [given, text_of_valid valid]
        exact eval_storeText
      · rw [given, text_of_toOption absent]
        simp only
        generalize findAvailableSlots _ _ _ _ _ _ _ = slots
        cases slots with
        | none => simp [Eval.not_diverge]
        | some slots => exact eval_storeText

/-- What the key yields is a truthy value: the answer is that value. -/
theorem eval_queryText_hit {q : Query} (conform : q.conform = true)
    (hit : (RedisService.read (w.redis.get q.key)).truthy = true) {out : Except Exn JsonValue} :
    Eval (textInterp db) (q.handleText cfg) w out w' ↔
      out = .ok (RedisService.read (w.redis.get q.key)) ∧ w' = w := by
  rw [eval_queryText conform, hit]
  simp

/-- **A corrupt entry is replaced.**  Where the key's text is missing, empty, no JSON or a
falsy value, a query as declared answers from the tables and leaves that answer under its key
and the other entries as they are; asked again, it returns it from there.  Slots take whole
minutes, so that the search ends. -/
theorem corrupt_text_replaced {q : Query} {S : Nat} (conform : q.conform = true)
    (slots : cfg.slotDuration = (S : JsNumber)) (positive : 0 < S)
    (corrupt : (RedisService.read (w.redis.get q.key)).truthy = false) :
    ∃ answer, fresh db cfg w.tables q = some answer ∧
    let repaired : TextWorld := { w with redis := w.redis.set q.key answer.toText }
    (∀ out w', Eval (textInterp db) (q.handleText cfg) w out w' ↔
      out = .ok answer.toJson ∧ w' = repaired) ∧
    (∀ out w', Eval (textInterp db) (q.handleText cfg) repaired out w' ↔
      out = .ok answer.toJson ∧ w' = repaired) ∧
    ∀ key ≠ q.key, repaired.redis.get key = w.redis.get key := by
  obtain ⟨answer, computed⟩ : ∃ answer, fresh db cfg w.tables q = some answer :=
    exists_fresh conform slots positive
  refine ⟨answer, computed, ?_⟩
  intro repaired
  have stored : RedisService.read (repaired.redis.get q.key) = answer.toJson := by
    change RedisService.read ((w.redis.set q.key answer.toText).get q.key) = _
    rw [Redis.get_set, if_pos rfl, QueryOutput.toText, read_stringify (plain_toJson answer)]
  refine ⟨fun out w' => ?_, fun out w' => ?_, fun key other => ?_⟩
  · rw [eval_queryText conform, corrupt, computed]
    simp [repaired]
  · rw [eval_queryText_hit conform (by rw [stored, truthy_toJson]), stored]
  · exact Redis.get_set.trans (if_neg other)

/-- A text cut off in the middle. -/
theorem corrupt_text_replaced_cut_off :
    let q : Query := .checkAvailability ⟨"2025-03-10", .given "18:00", .undefined, 2⟩
    let w : TextWorld := ⟨.empty, ⟨[⟨q.key, "\x7b\"message\":\"Time sl", 0⟩], 1⟩⟩
    let answer : QueryOutput := .availability ⟨"Time slot available", ["18:00"]⟩
    ∀ out w', Eval (textInterp .inMemory) (q.handleText .default) w out w' ↔
      out = .ok answer.toJson ∧ w' = { w with redis := w.redis.set q.key answer.toText } := by
  intro q w answer
  have computed : fresh .inMemory .default w.tables q = some answer := by decide +kernel
  have slots : Config.default.slotDuration = ((30 : Nat) : JsNumber) := rfl
  obtain ⟨found, same, replaced, -⟩ :
      ∃ found, fresh .inMemory .default w.tables q = some found ∧ _ :=
    corrupt_text_replaced (by decide) slots (by decide) (by decide +kernel)
  cases computed.symm.trans same
  exact replaced

/-- **Set, then get.**  What is written under a key is read there again, whatever plain
value it is, and the other keys yield what they did. -/
theorem eval_set_get {key key' : String} {value : JsonValue} {ttl : Nat} (plain : value.Plain)
    {out : Except Exn JsonValue} :
    Eval (textInterp db) (do RedisService.set key value ttl; RedisService.get key') w out w' ↔
      w' = { w with redis := w.redis.set key value.stringify } ∧
        out = .ok (if key' = key then value else RedisService.read (w.redis.get key')) := by
  have read : RedisService.read ((w.redis.set key value.stringify).get key') =
      if key' = key then value else RedisService.read (w.redis.get key') := by
    rw [Redis.get_set]
    split
    · exact read_stringify plain
    · rfl
  simp only [RedisService.set, RedisService.get, Async.call, Async.await_bind, evalText_set,
    evalText_get, ofExcept_text, Async.pure_bind, Async.pure_eq, Eval.pure_iff, read, and_comm]

/-- A nested value with a quote in it, read at its key and beside it. -/
theorem eval_set_get_nested :
    let value : JsonValue :=
      .object [("a\"b", .array [.null, .number (-3), .string "\n"]), ("c", .bool false)]
    let w : TextWorld := ⟨.empty, ⟨[⟨"other", "[]", 0⟩], 1⟩⟩
    ∀ key', Eval (textInterp .inMemory)
        (do RedisService.set "key" value 300; RedisService.get key') w
        (.ok (if key' = "key" then value else RedisService.read (w.redis.get key')))
        { w with redis := w.redis.set "key" value.stringify } := by
  intro value w key'
  have plain : value.Plain := by
    simp [value, JsonValue.Plain, JsonValue.FieldsPlain, JsonValue.AllPlain, Rat.isInt]
  exact (eval_set_get plain).mpr ⟨rfl, rfl⟩

end EvalText

end RestaurantAssistant
