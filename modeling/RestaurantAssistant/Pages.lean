import Mathlib.Algebra.Order.Floor.Div
import RestaurantAssistant.CacheTransparency

/-!
# The pages of a listing

A page is a cut of the matching rows in one order: `limit` rows behind those of
the pages before it.  The pages from the first one to the last one are then the
matching rows, each of them once (`flatMap_pages`), and `getReservations`
returns these cuts, from the database and from the cache alike
(`pages_partition_listing`).

How the database orders the rows is library code: of `getMany` and `getCount` it
is assumed what `QueryEngine.PagesBy` says.
-/

namespace RestaurantAssistant

open Awaiting Js

/-! ## Cutting a list into pages -/

section Cut

variable {α : Type} {l : List α} {limit : Nat}

/-- The page with the given index, from zero. -/
def cut (l : List α) (limit index : Nat) : List α := (l.drop (index * limit)).take limit

theorem flatMap_cut (n : Nat) : (List.range n).flatMap (cut l limit) = l.take (n * limit) := by
  induction n with
  | zero => simp
  | succ n ih =>
    rw [List.range_succ, List.flatMap_append, ih, List.flatMap_singleton, Nat.succ_mul,
      List.take_add, cut]

/-- All pages together are the list. -/
theorem flatMap_pages (positive : 0 < limit) :
    (List.range (l.length ⌈/⌉ limit)).flatMap (cut l limit) = l := by
  have enough : l.length ≤ limit * (l.length ⌈/⌉ limit) :=
    (ceilDiv_le_iff_le_mul positive).mp le_rfl
  rw [flatMap_cut, List.take_of_length_le]
  rwa [Nat.mul_comm]

/-- A page before the last one is full. -/
theorem length_cut {index : Nat} (positive : 0 < limit) (before : index + 1 < l.length ⌈/⌉ limit) :
    (cut l limit index).length = limit := by
  have more : limit * (index + 1) < l.length := by
    by_contra few
    exact before.not_ge ((ceilDiv_le_iff_le_mul positive).mpr (not_lt.mp few))
  have rest : index * limit + limit ≤ l.length := by
    rw [Nat.mul_comm, Nat.add_one_mul] at more
    exact more.le
  rw [cut, List.length_take, List.length_drop]
  omega

/-- There is nothing behind the last page. -/
theorem cut_eq_nil {index : Nat} (positive : 0 < limit) (after : l.length ⌈/⌉ limit ≤ index) :
    cut l limit index = [] := by
  have few : l.length ≤ index * limit := by
    rw [Nat.mul_comm]
    exact (ceilDiv_le_iff_le_mul positive).mp after
  rw [cut, List.drop_eq_nil_of_le few, List.take_nil]

end Cut

/-! ## Listings -/

/-- `skip` and `take` cut a page of at least one row out of the matching rows in the order
`before` for the `ORDER BY` (which decides between equal rows by their primary key), and
`getCount` ignores both. -/
structure QueryEngine.PagesBy (db : QueryEngine)
    (before : Option (String × SortOrder) → Reservation → Reservation → Bool) : Prop where
  getMany : ∀ query rows, 0 ≤ query.skip → 1 ≤ query.take → db.getMany query rows =
    (((rows.filter query.accepts).mergeSort (before query.orderBy)).drop query.skip.toNat).take
      query.take.toNat
  getCount : ∀ query rows, db.getCount query rows = (rows.filter query.accepts).length

/-- The page a pagination asks for. -/
def pageOf (pagination : Arg PaginationInput) : Int :=
  (pagination.toOption.bind fun p => p.page.toOption).getD 1

/-- The items it asks for. -/
def limitOf (pagination : Arg PaginationInput) : Int :=
  (pagination.toOption.bind fun p => p.limit.toOption).getD 10

/-- The rows that meet all conditions of the filter that the code applies. -/
def matchingRows (filter : Arg ReservationFilterInput) (rows : List Reservation) :
    List Reservation :=
  rows.filter (listingQuery filter .undefined .undefined).accepts

variable {db : QueryEngine} {cfg : Config}
  {before : Option (String × SortOrder) → Reservation → Reservation → Bool}

/-- The answer to a page request. -/
theorem fresh_page (pagesBy : db.PagesBy before) {filter : Arg ReservationFilterInput}
    {pagination : Arg PaginationInput} {sort : Arg SortInput} {T : Tables} {limit p : Nat}
    (positive : 1 ≤ limit) (page : pageOf pagination = p + 1) (size : limitOf pagination = limit) :
    fresh db cfg T (.getReservations filter pagination sort) = some (.reservations
      ⟨cut ((matchingRows filter T.reservations).mergeSort
        (before (listingQuery filter .undefined sort).orderBy)) limit p,
        ⟨(matchingRows filter T.reservations).length⟩⟩) := by
  have skip : (listingQuery filter pagination sort).skip = ((p * limit : Nat) : Int) := by
    change (pageOf pagination - 1) * limitOf pagination = _
    rw [page, size]
    push_cast
    ring
  have take : (listingQuery filter pagination sort).take = (limit : Int) := size
  have many := pagesBy.getMany (listingQuery filter pagination sort) T.reservations
    (skip ▸ Int.natCast_nonneg _) (take ▸ Nat.one_le_cast.mpr positive)
  have count := pagesBy.getCount (listingQuery filter pagination sort) T.reservations
  rw [skip, take, Int.toNat_natCast, Int.toNat_natCast] at many
  rw [fresh_eq]
  simp only [Query.answer]
  rw [many, count]
  rfl

/-- On a coherent cache a query has its fresh answer, and no other outcome. -/
theorem outcome_of_query {q : Query} {w : World} {v : QueryOutput} (conform : q.conform = true)
    (coherent : Coherent db cfg w) (answer : fresh db cfg w.tables q = some v)
    (out : Except Exn QueryOutput) :
    (∃ w', Eval (interp db) (q.handle cfg) w out w') ↔ out = .ok v := by
  simp only [eval_query conform]
  cases cached : w.redis.get q.key with
  | none =>
    constructor
    · rintro ⟨w', ⟨u, hit, -⟩ | ⟨-, u, same, rfl, -⟩⟩
      · cases hit
      · rw [answer] at same
        cases same
        rfl
    · rintro rfl
      exact ⟨_, .inr ⟨rfl, v, answer, rfl, rfl⟩⟩
  | some u =>
    obtain ⟨e, member, key, rfl⟩ := Redis.exists_of_get cached
    have same := coherent e member q conform key.symm
    rw [answer] at same
    cases same
    constructor
    · rintro ⟨w', ⟨u, hit, rfl, -⟩ | ⟨miss, -⟩⟩
      · cases hit
        rfl
      · cases miss
    · rintro rfl
      exact ⟨w, .inl ⟨_, rfl, rfl, rfl⟩⟩

/-- The pages of a listing partition its rows.  Wherever requests one after the other
have led, while the table holds the rows each page has the same answer; the pages up to
the last one together have every matching row exactly once and no other, all but the
last one are full, the later ones are empty, and each reports the number of matching
rows. -/
theorem pages_partition_listing (cfg : Config) (rounds : Nat) (pagesBy : db.PagesBy before)
    {limit : Nat} (positive : 1 ≤ limit) (pagination : Nat → Arg PaginationInput)
    (asks : ∀ p, 1 ≤ p → pageOf (pagination p) = p ∧ limitOf (pagination p) = limit)
    (filter : Arg ReservationFilterInput) (sort : Arg SortInput) (rows : List Reservation) :
    ∃ items : Nat → List Reservation,
      (∀ T log w, (server db cfg rounds).Session (fun _ r => r.conform = true) ⟨T, .empty⟩ log w →
        w.tables.reservations = rows → ∀ p, 1 ≤ p → ∀ out,
          (∃ w', Eval (interp db) (getReservations filter (pagination p) sort) w out w') ↔
            out = .ok (.reservations ⟨items p, ⟨(matchingRows filter rows).length⟩⟩)) ∧
      ((List.range ((matchingRows filter rows).length ⌈/⌉ limit)).flatMap
        fun index => items (index + 1)).Perm (matchingRows filter rows) ∧
      (∀ p, 1 ≤ p → p < (matchingRows filter rows).length ⌈/⌉ limit →
        (items p).length = limit) ∧
      ∀ p, (matchingRows filter rows).length ⌈/⌉ limit < p → items p = [] := by
  let ordered := (matchingRows filter rows).mergeSort
    (before (listingQuery filter .undefined sort).orderBy)
  have length : ordered.length = (matchingRows filter rows).length := List.length_mergeSort _
  refine ⟨fun p => cut ordered limit (p - 1), ?_, ?_, ?_, ?_⟩
  · rintro T log w session rfl p one out
    obtain ⟨page, size⟩ := asks p one
    obtain ⟨coherent, -⟩ := transparent_of_session session
    have index : pageOf (pagination p) = ((p - 1 : Nat) : Int) + 1 := by
      rw [page]
      omega
    exact outcome_of_query (q := .getReservations filter (pagination p) sort) rfl coherent
      (fresh_page pagesBy positive index size) out
  · rw [← length]
    simp only [Nat.add_sub_cancel]
    rw [flatMap_pages positive]
    exact List.mergeSort_perm _ _
  · intro p one last
    apply length_cut positive
    rw [length]
    omega
  · intro p beyond
    apply cut_eq_nil positive
    rw [length]
    omega

/-! ## A database with an order -/

/-- Rows by a column and by their `id` among equals. -/
def columnOrder : Option (String × SortOrder) → Reservation → Reservation → Bool
  | some ("guests", .asc), r, s => decide (r.guests < s.guests ∨ r.guests = s.guests ∧ r.id ≤ s.id)
  | some ("guests", .desc), r, s => decide (s.guests < r.guests ∨ r.guests = s.guests ∧ r.id ≤ s.id)
  | some ("date", .asc), r, s => decide (r.date < s.date ∨ r.date = s.date ∧ r.id ≤ s.id)
  | some ("date", .desc), r, s => decide (s.date < r.date ∨ r.date = s.date ∧ r.id ≤ s.id)
  | _, r, s => decide (r.id ≤ s.id)

/-- A database that orders rows by these columns. -/
def QueryEngine.ordered : QueryEngine where
  getMany query rows :=
    (((rows.filter query.accepts).mergeSort (columnOrder query.orderBy)).drop query.skip.toNat).take
      query.take.toNat
  getCount query rows := (rows.filter query.accepts).length

theorem QueryEngine.ordered_pagesBy : QueryEngine.ordered.PagesBy columnOrder :=
  ⟨fun _ _ _ _ => rfl, fun _ _ => rfl⟩

/-- Three reservations. -/
def threeRows : Tables where
  reservations :=
    [⟨⟨"18:00", 4⟩, 1, "2025-03-10", ⟨1, "Ada"⟩⟩, ⟨⟨"19:00", 2⟩, 2, "2025-03-10", ⟨1, "Ada"⟩⟩,
      ⟨⟨"20:00", 4⟩, 3, "2025-03-11", ⟨2, "Bob"⟩⟩]
  customers := [⟨1, "Ada"⟩, ⟨2, "Bob"⟩]
  nextReservation := 4
  nextCustomer := 3

/-- They are on two pages of two, by their guests. -/
theorem three_rows_on_two_pages : ∃ items : Nat → List Reservation,
    (∃ w', Eval (interp .ordered) (getReservations .undefined (.given ⟨.given 2, .given 2⟩)
      (.given ⟨.given "guests", .given "DESC"⟩)) ⟨threeRows, .empty⟩
        (.ok (.reservations ⟨items 2, ⟨3⟩⟩)) w') ∧
    (items 1 ++ items 2).Perm threeRows.reservations ∧ (items 1).length = 2 ∧ items 3 = [] := by
  have all : matchingRows .undefined threeRows.reservations = threeRows.reservations := rfl
  obtain ⟨items, answers, once, full, empty⟩ := pages_partition_listing .default 0
    QueryEngine.ordered_pagesBy (show 1 ≤ 2 by decide) (fun p => .given ⟨.given p, .given 2⟩)
    (fun _ _ => ⟨rfl, rfl⟩) .undefined (.given ⟨.given "guests", .given "DESC"⟩)
    threeRows.reservations
  have served := (answers threeRows [] ⟨threeRows, .empty⟩ .nil rfl 2 (by decide) _).mpr rfl
  rw [all] at served once full empty
  refine ⟨items, served, ?_, full 1 (by decide) (by decide), empty 3 (by decide)⟩
  have two : List.range (threeRows.reservations.length ⌈/⌉ 2) = [0, 1] := by decide
  rw [two] at once
  simpa using once

end RestaurantAssistant
