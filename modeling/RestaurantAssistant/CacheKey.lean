import Mathlib.Data.List.Infix
import RestaurantAssistant.Queries

/-!
# The cache keys

Two queries with the same key have the same answer, whatever the reservations
are (`Query.answer_eq_of_key_eq`), and every key matches one of the two patterns
that `clearReservationCache` scans for (`Query.key_matches`).
-/

namespace RestaurantAssistant

open Awaiting Js

variable {db : QueryEngine} {cfg : Config}

/-! ## Listing keys -/

theorem lookup_jsonField {α : Type} {name : String} {scalar : α → JsonScalar} {arg : Arg α}
    {rest : JsonObject} :
    (jsonField name scalar arg ++ rest).lookup name =
      (arg.toScalar scalar).or (rest.lookup name) := by
  cases arg <;> simp [jsonField, Arg.toScalar]

theorem lookup_jsonField_of_ne {α : Type} {name other : String} {scalar : α → JsonScalar}
    {arg : Arg α} {rest : JsonObject} (ne : other ≠ name) :
    (jsonField name scalar arg ++ rest).lookup other = rest.lookup other := by
  have miss : (other == name) = false := by simpa using ne
  cases arg <;> simp [jsonField, List.lookup_cons, miss]

theorem ReservationFilterInput.toJson_injective :
    Function.Injective ReservationFilterInput.toJson := by
  have fields : ∀ f : ReservationFilterInput,
      f.toJson.lookup "customerName" = f.customerName.toScalar .string ∧
      f.toJson.lookup "date" = f.date.toScalar .string ∧
      f.toJson.lookup "guests" = f.guests.toScalar .number := by
    intro f
    have last : f.toJson = jsonField "customerName" .string f.customerName ++
        (jsonField "date" .string f.date ++ (jsonField "guests" .number f.guests ++ [])) := by
      rw [ReservationFilterInput.toJson, List.append_nil, List.append_assoc]
    rw [last]
    refine ⟨?_, ?_, ?_⟩
    · rw [lookup_jsonField, lookup_jsonField_of_ne (by decide), lookup_jsonField_of_ne (by decide)]
      simp
    · rw [lookup_jsonField_of_ne (by decide), lookup_jsonField, lookup_jsonField_of_ne (by decide)]
      simp
    · rw [lookup_jsonField_of_ne (by decide), lookup_jsonField_of_ne (by decide), lookup_jsonField]
      simp
  intro f g same
  obtain ⟨name, date, guests⟩ := fields f
  obtain ⟨name', date', guests'⟩ := fields g
  rw [same] at name date guests
  obtain ⟨fName, fDate, fGuests⟩ := f
  obtain ⟨gName, gDate, gGuests⟩ := g
  cases Arg.string_injective (name.symm.trans name')
  cases Arg.string_injective (date.symm.trans date')
  cases Arg.number_injective (guests.symm.trans guests')
  rfl

theorem PaginationInput.toJson_injective : Function.Injective PaginationInput.toJson := by
  have fields : ∀ p : PaginationInput,
      p.toJson.lookup "page" = p.page.toScalar .number ∧
      p.toJson.lookup "limit" = p.limit.toScalar .number := by
    intro p
    have last : p.toJson =
        jsonField "page" .number p.page ++ (jsonField "limit" .number p.limit ++ []) := by
      rw [PaginationInput.toJson, List.append_nil]
    rw [last]
    refine ⟨?_, ?_⟩
    · rw [lookup_jsonField, lookup_jsonField_of_ne (by decide)]
      simp
    · rw [lookup_jsonField_of_ne (by decide), lookup_jsonField]
      simp
  intro p p' same
  obtain ⟨page, limit⟩ := fields p
  obtain ⟨page', limit'⟩ := fields p'
  rw [same] at page limit
  obtain ⟨_, _⟩ := p
  obtain ⟨_, _⟩ := p'
  cases Arg.number_injective (page.symm.trans page')
  cases Arg.number_injective (limit.symm.trans limit')
  rfl

theorem SortInput.toJson_injective : Function.Injective SortInput.toJson := by
  have fields : ∀ s : SortInput,
      s.toJson.lookup "sortBy" = s.sortBy.toScalar .string ∧
      s.toJson.lookup "order" = s.order.toScalar .string := by
    intro s
    have last : s.toJson =
        jsonField "sortBy" .string s.sortBy ++ (jsonField "order" .string s.order ++ []) := by
      rw [SortInput.toJson, List.append_nil]
    rw [last]
    refine ⟨?_, ?_⟩
    · rw [lookup_jsonField, lookup_jsonField_of_ne (by decide)]
      simp
    · rw [lookup_jsonField_of_ne (by decide), lookup_jsonField]
      simp
  intro s s' same
  obtain ⟨sortBy, order⟩ := fields s
  obtain ⟨sortBy', order'⟩ := fields s'
  rw [same] at sortBy order
  obtain ⟨_, _⟩ := s
  obtain ⟨_, _⟩ := s'
  cases Arg.string_injective (sortBy.symm.trans sortBy')
  cases Arg.string_injective (order.symm.trans order')
  rfl

/-- The text of a listing's key for any three JSON objects, whatever the order of their
fields. -/
def listingText (filter pagination sort : Arg JsonObject) : List Char :=
  "reservations:".toList ++
    (Json.argText filter ++ ':' :: (Json.argText pagination ++ ':' :: Json.argText sort))

theorem listingText_inj {filter filter' pagination pagination' sort sort' : Arg JsonObject}
    (same : listingText filter pagination sort = listingText filter' pagination' sort') :
    filter = filter' ∧ pagination = pagination' ∧ sort = sort' := by
  have texts := List.append_cancel_left same
  obtain ⟨filters, rest⟩ := Json.argText_prefixFree texts
  obtain ⟨paginations, rest⟩ := Json.argText_prefixFree (List.cons.inj rest).2
  have last := (List.cons.inj rest).2
  rw [← List.append_nil (Json.argText sort), ← List.append_nil (Json.argText sort')] at last
  obtain ⟨sorts, -⟩ := Json.argText_prefixFree last
  exact ⟨filters, paginations, sorts⟩

theorem listingKey_toList (filter : Arg ReservationFilterInput) (pagination : Arg PaginationInput)
    (sort : Arg SortInput) :
    (listingKey filter pagination sort).toList =
      listingText (filter.map ReservationFilterInput.toJson)
        (pagination.map PaginationInput.toJson) (sort.map SortInput.toJson) :=
  String.toList_ofList

/-- A listing's key determines its arguments. -/
theorem listingKey_inj {filter filter' : Arg ReservationFilterInput}
    {pagination pagination' : Arg PaginationInput} {sort sort' : Arg SortInput}
    (same : listingKey filter pagination sort = listingKey filter' pagination' sort') :
    filter = filter' ∧ pagination = pagination' ∧ sort = sort' := by
  have texts := congrArg String.toList same
  rw [listingKey_toList, listingKey_toList] at texts
  obtain ⟨filters, paginations, sorts⟩ := listingText_inj texts
  exact ⟨Arg.map_injective ReservationFilterInput.toJson_injective filters,
    Arg.map_injective PaginationInput.toJson_injective paginations,
    Arg.map_injective SortInput.toJson_injective sorts⟩

/-! ## Availability keys -/

/-- Two lists are split at the last occurrence of a separator in one way. -/
theorem append_cons_inj_of_not_mem {α : Type} {c : α} {l m r s : List α}
    (same : l ++ c :: r = m ++ c :: s) (inR : c ∉ r) (inS : c ∉ s) : l = m ∧ r = s := by
  induction l generalizing m with
  | nil =>
    cases m with
    | nil => exact ⟨rfl, (List.cons.inj same).2⟩
    | cons d m =>
      rw [List.nil_append, List.cons_append] at same
      obtain ⟨-, rest⟩ := List.cons.inj same
      exact absurd (rest ▸ List.mem_append_right m List.mem_cons_self) inR
  | cons d l ih =>
    cases m with
    | nil =>
      rw [List.nil_append, List.cons_append] at same
      obtain ⟨-, rest⟩ := List.cons.inj same
      exact absurd (rest ▸ List.mem_append_right l List.mem_cons_self) inS
    | cons e m =>
      rw [List.cons_append, List.cons_append] at same
      obtain ⟨rfl, rest⟩ := List.cons.inj same
      obtain ⟨rfl, ends⟩ := ih rest
      exact ⟨rfl, ends⟩

/-- The start of the period a key names. -/
def CheckAvailabilityInput.startText (data : CheckAvailabilityInput) : String :=
  data.time.text.getD ((data.timeRange.toOption.map TimeRangeInput.start).getD "undefined")

/-- The end of the period a key names. -/
def CheckAvailabilityInput.stopText (data : CheckAvailabilityInput) : String :=
  (data.timeRange.toOption.bind fun r => if r.stop = "" then none else some r.stop).getD "none"

theorem availabilityKey_toList (data : CheckAvailabilityInput) :
    (availabilityKey data).toList = "availability:".toList ++ (data.date.toList ++ ':' ::
      (data.startText.toList ++ '-' :: (data.stopText.toList ++ ':' ::
        JsNumber.integerText data.guests))) := by
  have colon : ":".toList = [':'] := rfl
  have dash : "-".toList = ['-'] := rfl
  unfold availabilityKey CheckAvailabilityInput.startText CheckAvailabilityInput.stopText
  simp only [String.toList_append, String.toList_ofList, colon, dash, List.append_assoc,
    List.cons_append, List.nil_append]

theorem colon_not_mem_integerText (n : Int) : ':' ∉ JsNumber.integerText n := by
  intro member
  exact absurd (Json.isIntegerChar_of_mem member) (by decide)

theorem valid_toList {time : String} (valid : isValidTimeString time = true) :
    time.toList.length = 5 ∧ '-' ∉ time.toList := by
  obtain ⟨m, day, rfl⟩ := isValidTimeString_iff.mp valid
  rw [convertToTime_toList day]
  have chars : ∀ h < 24, ∀ m < 60, '-' ∉ hhmm h m := by decide +kernel
  exact ⟨rfl, chars _ (by omega) _ (by omega)⟩

/-- The two texts of a time query and of a range query. -/
theorem texts_of_timed {data : CheckAvailabilityInput} (timed : data.timed = true) :
    (∃ time, isValidTimeString time = true ∧ data.time.text = some time ∧
      data.timeRange.toOption = none ∧ data.startText = time ∧ data.stopText = "none") ∨
    (∃ range, isValidTimeString range.start = true ∧ isValidTimeString range.stop = true ∧
      data.time.text = none ∧ data.timeRange.toOption = some range ∧
      data.startText = range.start ∧ data.stopText = range.stop) := by
  unfold CheckAvailabilityInput.startText CheckAvailabilityInput.stopText
  rcases data.timed_cases timed with ⟨time, given, valid, absent⟩ | ⟨range, absent, given, valid⟩
  · have text : data.time.text = some time := by rw [given, text_of_valid valid]
    refine .inl ⟨time, valid, text, absent, ?_, ?_⟩
    · rw [text, Option.getD_some]
    · rw [absent]
      rfl
  · have text := text_of_toOption absent
    have ranged : data.timeRange.toOption = some range := by
      rw [given]
      rfl
    have nonempty : range.stop ≠ "" := by
      intro empty
      have valid' := valid.2
      rw [empty] at valid'
      exact absurd valid' (by decide)
    refine .inr ⟨range, valid.1, valid.2, text, ranged, ?_, ?_⟩
    · rw [text, ranged]
      rfl
    · rw [ranged, Option.bind_some, if_neg nonempty, Option.getD_some]

theorem startText_length {data : CheckAvailabilityInput} (timed : data.timed = true) :
    data.startText.toList.length = 5 := by
  rcases texts_of_timed timed with ⟨time, valid, _, _, start, _⟩ | ⟨range, valid, _, _, _, start, _⟩
  · rw [start]
    exact (valid_toList valid).1
  · rw [start]
    exact (valid_toList valid).1

theorem dash_not_mem_stopText {data : CheckAvailabilityInput} (timed : data.timed = true) :
    '-' ∉ data.stopText.toList := by
  rcases texts_of_timed timed with ⟨_, _, _, _, _, stop⟩ | ⟨range, _, valid, _, _, _, stop⟩
  · rw [stop]
    decide
  · rw [stop]
    exact (valid_toList valid).2

/-- An availability key determines its four parts. -/
theorem availabilityKey_parts {data data' : CheckAvailabilityInput} (timed : data.timed = true)
    (timed' : data'.timed = true) (same : availabilityKey data = availabilityKey data') :
    data.date = data'.date ∧ data.startText = data'.startText ∧ data.stopText = data'.stopText ∧
      data.guests = data'.guests := by
  have texts := congrArg String.toList same
  rw [availabilityKey_toList, availabilityKey_toList] at texts
  -- from the right: the guests have no colon, the end has no dash, the start has five characters
  have regroup : ∀ d s e g : List Char, d ++ ':' :: (s ++ '-' :: (e ++ ':' :: g)) =
      ((d ++ ':' :: s) ++ '-' :: e) ++ ':' :: g := by
    intro d s e g
    simp only [List.append_assoc, List.cons_append]
  have body := List.append_cancel_left texts
  rw [regroup, regroup] at body
  obtain ⟨period, guests⟩ := append_cons_inj_of_not_mem body
    (colon_not_mem_integerText _) (colon_not_mem_integerText _)
  obtain ⟨front, stop⟩ := append_cons_inj_of_not_mem period
    (dash_not_mem_stopText timed) (dash_not_mem_stopText timed')
  have lengths : (':' :: data.startText.toList).length =
      (':' :: data'.startText.toList).length := by
    rw [List.length_cons, List.length_cons, startText_length timed, startText_length timed']
  obtain ⟨date, start⟩ := List.append_inj' front lengths
  exact ⟨String.toList_inj.mp date, String.toList_inj.mp (List.cons.inj start).2,
    String.toList_inj.mp stop, Json.integerText_injective guests⟩

/-- An availability key determines what the input asks for. -/
theorem availabilityKey_periods {data data' : CheckAvailabilityInput} (timed : data.timed = true)
    (timed' : data'.timed = true) (same : availabilityKey data = availabilityKey data') :
    data.date = data'.date ∧ data.time.text = data'.time.text ∧
      data.timeRange.toOption = data'.timeRange.toOption ∧ data.guests = data'.guests := by
  obtain ⟨date, start, stop, guests⟩ := availabilityKey_parts timed timed' same
  rcases texts_of_timed timed with ⟨time, _, text, absent, start₁, stop₁⟩ |
    ⟨range, _, valid, text, given, start₁, stop₁⟩ <;>
  rcases texts_of_timed timed' with ⟨time', _, text', absent', start₂, stop₂⟩ |
    ⟨range', _, valid', text', given', start₂, stop₂⟩
  · rw [text, text', absent, absent', ← start₁, ← start₂, start]
    exact ⟨date, rfl, rfl, guests⟩
  · rw [← stop₂, ← stop, stop₁] at valid'
    exact absurd valid' (by decide)
  · rw [← stop₁, stop, stop₂] at valid
    exact absurd valid (by decide)
  · rw [text, text', given, given']
    refine ⟨date, rfl, congrArg some ?_, guests⟩
    obtain ⟨_, _⟩ := range
    obtain ⟨_, _⟩ := range'
    rw [start₁, start₂] at start
    rw [stop₁, stop₂] at stop
    cases start
    cases stop
    rfl

/-- The answer looks at the parts of the input that the key names. -/
theorem availabilityOf_congr {data data' : CheckAvailabilityInput} {bookings : List Booking}
    (time : data.time.text = data'.time.text)
    (range : data.timeRange.toOption = data'.timeRange.toOption)
    (guests : data.guests = data'.guests) :
    availabilityOf cfg bookings data = availabilityOf cfg bookings data' := by
  unfold availabilityOf
  rw [time, guests]
  cases data'.time.text with
  | some time => rfl
  | none =>
    generalize data.timeRange = a at range ⊢
    generalize data'.timeRange = b at range ⊢
    cases a <;> cases b <;> simp only [Arg.toOption, reduceCtorEq, Option.some.injEq] at range
    all_goals first | rfl | rw [range]

/-- An availability key determines the answer. -/
theorem availability_answer_eq {data data' : CheckAvailabilityInput} (timed : data.timed = true)
    (timed' : data'.timed = true) (same : availabilityKey data = availabilityKey data')
    (reservations : List Reservation) :
    (Query.checkAvailability data).answer db cfg reservations =
      (Query.checkAvailability data').answer db cfg reservations := by
  obtain ⟨date, time, range, guests⟩ := availabilityKey_periods timed timed' same
  simp only [Query.answer]
  rw [date, availabilityOf_congr time range guests]

/-! ## Both families -/

/-- The patterns `clearReservationCache` scans for. -/
def Query.pattern : Query → String
  | .getReservations _ _ _ => "reservations:*"
  | .checkAvailability _ => "availability:*"

theorem globMatch_star (text : List Char) : globMatch ['*'] text = true := by
  simp only [globMatch, if_true, List.any_eq_true]
  exact ⟨[], (List.mem_tails [] text).mpr List.nil_suffix, rfl⟩

/-- A pattern that ends in its only star matches what starts with the rest. -/
theorem globMatch_append_star {front : List Char} (plain : '*' ∉ front) (text : List Char) :
    globMatch (front ++ ['*']) text = true ↔ front <+: text := by
  induction front generalizing text with
  | nil => exact iff_of_true (globMatch_star text) List.nil_prefix
  | cons c front ih =>
    have ne : c ≠ '*' := by
      intro star
      exact plain (star ▸ List.mem_cons_self)
    cases text with
    | nil => simp [globMatch, ne]
    | cons d text =>
      rw [List.cons_append, globMatch, if_neg ne, Bool.and_eq_true, beq_iff_eq,
        List.cons_prefix_cons, ih fun member => plain (List.mem_cons_of_mem c member)]

/-- Every key is in the family of its query. -/
theorem Query.key_matches (q : Query) :
    globMatch q.pattern.toList q.key.toList = true := by
  cases q with
  | getReservations filter pagination sort =>
    have pattern : "reservations:*".toList = "reservations:".toList ++ ['*'] := by decide
    unfold Query.pattern Query.key
    rw [pattern, listingKey_toList, globMatch_append_star (by decide)]
    exact List.prefix_append _ _
  | checkAvailability data =>
    have pattern : "availability:*".toList = "availability:".toList ++ ['*'] := by decide
    unfold Query.pattern Query.key
    rw [pattern, availabilityKey_toList, globMatch_append_star (by decide)]
    exact List.prefix_append _ _

/-- The two families differ in their first character. -/
theorem listingText_ne_availabilityKey {filter pagination sort : Arg JsonObject}
    {data : CheckAvailabilityInput} :
    listingText filter pagination sort ≠ (availabilityKey data).toList := by
  have reservations : "reservations:".toList = 'r' :: "eservations:".toList := by decide
  have availability : "availability:".toList = 'a' :: "vailability:".toList := by decide
  intro same
  rw [availabilityKey_toList, availability, List.cons_append] at same
  unfold listingText at same
  rw [reservations, List.cons_append] at same
  exact absurd (List.cons.inj same).1 (by decide)

theorem listingKey_ne_availabilityKey {filter : Arg ReservationFilterInput}
    {pagination : Arg PaginationInput} {sort : Arg SortInput} {data : CheckAvailabilityInput} :
    listingKey filter pagination sort ≠ availabilityKey data := by
  intro same
  have texts := congrArg String.toList same
  rw [listingKey_toList] at texts
  exact listingText_ne_availabilityKey texts

/-- Listing keys are unambiguous: the key of three JSON objects determines them, it is
the key of no availability query, and so the only query with a listing's key is this
listing itself. -/
theorem listing_keys_unambiguous :
    (∀ filter pagination sort filter' pagination' sort' : Arg JsonObject,
      listingText filter pagination sort = listingText filter' pagination' sort' →
        filter = filter' ∧ pagination = pagination' ∧ sort = sort') ∧
    (∀ (filter pagination sort : Arg JsonObject) (data : CheckAvailabilityInput),
      listingText filter pagination sort ≠ (availabilityKey data).toList) ∧
    (∀ filter pagination sort, (listingKey filter pagination sort).toList =
      listingText (filter.map ReservationFilterInput.toJson)
        (pagination.map PaginationInput.toJson) (sort.map SortInput.toJson)) ∧
    ∀ (q : Query) filter pagination sort, q.key = listingKey filter pagination sort →
      q = .getReservations filter pagination sort := by
  refine ⟨fun _ _ _ _ _ _ => listingText_inj, fun _ _ _ _ => listingText_ne_availabilityKey,
    listingKey_toList, ?_⟩
  intro q filter pagination sort same
  cases q with
  | getReservations filter' pagination' sort' =>
    obtain ⟨rfl, rfl, rfl⟩ := listingKey_inj same
    rfl
  | checkAvailability data => exact absurd same.symm listingKey_ne_availabilityKey

/-- **Keys are unambiguous.**  Queries with the same key have the same answer. -/
theorem Query.answer_eq_of_key_eq {q q' : Query} (conform : q.conform = true)
    (conform' : q'.conform = true) (same : q.key = q'.key) (reservations : List Reservation) :
    q.answer db cfg reservations = q'.answer db cfg reservations := by
  cases q with
  | getReservations filter pagination sort =>
    cases q' with
    | getReservations filter' pagination' sort' =>
      obtain ⟨rfl, rfl, rfl⟩ := listingKey_inj same
      rfl
    | checkAvailability data' => exact absurd same listingKey_ne_availabilityKey
  | checkAvailability data =>
    cases q' with
    | getReservations filter' pagination' sort' =>
      exact absurd same.symm listingKey_ne_availabilityKey
    | checkAvailability data' => exact availability_answer_eq conform conform' same reservations

end RestaurantAssistant
