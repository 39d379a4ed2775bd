import RestaurantAssistant.Offers
import RestaurantAssistant.Outcomes
import RestaurantAssistant.Resolver
import RestaurantAssistant.Windows

/-!
# Bookings that were not made

A client who is not given a table is told why: the arguments are wrong, other times are
suggested, or there is no availability.  In every interleaving the reason is a good one
(`unbooked_for_a_reason`): at the moment the request looked there was no room at the time it
asked for; there was room at every time it suggests; and where it suggests none, there was
none in any slot of that day a whole number of slots away.
-/

namespace RestaurantAssistant

open Awaiting Js

/-- What has become of a `createReservation`, and why. -/
inductive Justified (isDateString : String → Bool) (cfg : Config) (S : Nat)
    (args : CreateReservationArgs) (h : History api World) : Except Exn Response → Prop
  | booked {message : String} {times : List String} {row : Reservation} {s : World} :
      (.db (.findReservations args.date), s) ∈ h →
      Honoured cfg s.tables args.date args.input.guests args.time →
      Justified isDateString cfg S args h (.ok (.created ⟨message, times, some row⟩))
  | suggested {message : String} {times : List String} {s : World} :
      (.db (.findReservations args.date), s) ∈ h →
      hasRoom cfg s.tables args.date args.time args.input.guests = false → times ≠ [] →
      (∀ time ∈ times, Honoured cfg s.tables args.date args.input.guests time) →
      Justified isDateString cfg S args h (.ok (.created ⟨message, times, none⟩))
  | full {message : String} {s : World} {m : Nat} :
      (.db (.findReservations args.date), s) ∈ h →
      hasRoom cfg s.tables args.date args.time args.input.guests = false →
      convertToMinutes args.time = .finite m →
      (∀ k : Nat, (m : ℚ) / S + 1 + k < (1440 : Nat) / S →
        slotHasRoom cfg s.tables args.date args.input.guests (.finite (m / S + 1 + k)) = false) →
      (∀ k : Nat, 0 ≤ (m : ℚ) / S - 1 - k →
        slotHasRoom cfg s.tables args.date args.input.guests (.finite (m / S - 1 - k)) = false) →
      Justified isDateString cfg S args h (.error (.badRequest message))
  | invalid {message : String} :
      (Operation.createReservation args).complaints isDateString ≠ [] → h = [] →
      Justified isDateString cfg S args h (.error (.badRequest message))

section Runs

variable {isDateString : String → Bool} {db : QueryEngine} {cfg : Config} {S D : Nat}
  {h : History api World}

/-- What `createReservation` ends with, where no call fails and the rows it has seen are well
formed. -/
theorem justified_of_createEnds {args : CreateReservationArgs}
    {out : Except Exn CreateReservationOutput} (slots : cfg.slotDuration = (S : JsNumber))
    (positive : 0 < S) (duration : cfg.reservationDuration = (D : JsNumber))
    (valid : isValidTimeString args.time = true)
    (formed : ∀ step ∈ h, WellFormed step.2.tables)
    (ends : CreateEnds cfg (fun _ => false) args.input h out) :
    Justified isDateString cfg S args h (out.map .created) := by
  cases ends with
  | booked looked room saved named => exact .booked looked ⟨valid, room⟩
  | suggested looked none search some_ =>
    refine .suggested looked none (by simpa using some_) fun time offered => ?_
    obtain ⟨slot, found, rfl⟩ := List.mem_map.mp offered
    exact honoured_of_findNearestAvailableSlots slots positive duration (formed _ looked) valid
      search found
  | refused looked none search =>
    obtain ⟨m, -, minutes⟩ := convertToMinutes_of_valid valid
    unfold nearestSlots at search
    rw [show args.input.time = args.time from rfl, minutes, findNearest_eq_nil_iff slots positive]
      at search
    exact .full looked none minutes search.1 search.2
  | failed failed =>
    obtain ⟨call, s, earlier, -, impossible⟩ := failed
    cases impossible

variable (isDateString db cfg) (rounds : Nat) {w : World}
  {es : List (Event Operation Choice String)} {Q : Pool api Operation World Response}
  {proc : Proc api Operation World Response} {args : CreateReservationArgs}
  {out : Except Exn Response}

/-- **No booking is turned away without a reason**, and none is made without one, in every
interleaving of operations with whatever arguments. -/
theorem unbooked_for_a_reason (slots : cfg.slotDuration = (S : JsNumber)) (positive : 0 < S)
    (duration : cfg.reservationDuration = (D : JsNumber)) (start : AllStored isDateString w.tables)
    (ran : (resolver isDateString db cfg rounds).run es ⟨w, []⟩ = some Q) (member : proc ∈ Q.procs)
    (asked : proc.request = .createReservation args) (ended : proc.prog.outcome? = some out) :
    Justified isDateString cfg S args proc.history out := by
  by_cases clean : (Operation.createReservation args).complaints isDateString = []
  · obtain ⟨rows, es', ran', -⟩ := admitted_run start ran
    have accepted := complaints_eq_nil.mp clean
    have admitted : proc.request.gate isDateString =
        .ok (.mutation (.createReservation args.input)) := by
      rw [asked]
      exact congrArg (Except.map _) (validationPipe_ok accepted)
    have inPool : ⟨.mutation (.createReservation args.input), proc.history, proc.prog⟩ ∈
        (Q.admitted (Operation.gate isDateString)).procs :=
      List.mem_filterMap.mpr ⟨proc, member, Proc.admitted_of_ok admitted⟩
    obtain ⟨o, rfl, ends⟩ := Server.run_ends (fun r h out =>
      AccountedFor db cfg (fun _ => false) h out r) (fun r => (ends_request r).reliable) ran' inPool
        ended
    have valid := (CreateReservationInput.valid_of_accepted
      (CreateReservationArgs.accepted_input accepted)).1
    refine justified_of_createEnds slots positive duration valid (fun step seen => ?_) ends
    intro r stored
    have row := (rows.2 _ inPool step seen).1 r stored
    exact ⟨row.time, row.guests⟩
  · rw [resolver_eq_behind] at ran
    have refused := Operation.gate_error clean
    rw [← asked] at refused
    obtain ⟨noCall, thrown⟩ := (Server.run_admitted Pool.refuses_nil ran).1 proc member _ refused
    rw [thrown] at ended
    cases ended
    exact .invalid clean noCall

end Runs

/-! ## A table that was just given up -/

/-- Eight guests at six. -/
def eightAtSix : World :=
  ⟨⟨[⟨⟨"18:00", 8⟩, 1, "2025-03-10", ⟨1, "Ada"⟩⟩], [⟨1, "Ada"⟩], 2, 2⟩, .empty⟩

/-- Four more want to come at six, and look before the eight cancel. -/
def lookedTooEarly : List (Event Operation Choice String) :=
  let nothing : Choice := .batch true []
  [.arrive (.createReservation ⟨"Ada", "2025-03-10", "18:00", 4⟩), .arrive (.cancelReservation 1),
    .resume 0 .reply, .resume 0 .reply, .resume 1 .reply, .resume 1 nothing, .resume 1 nothing]

theorem unbooked_for_a_reason_looked_too_early :
    ∃ Q, (resolver isoDateString .inMemory .default 0).run lookedTooEarly ⟨eightAtSix, []⟩ =
        some Q ∧ Q.shared.tables.reservations = [] ∧
      Q.procs.map (fun proc => proc.prog.outcome?) =
        [some (.ok (.created ⟨"Requested time is unavailable. Suggested available times:",
          ["18:30", "17:00"], none⟩)), some (.ok (.cancelled true))] ∧
      ∀ proc ∈ Q.procs, ∀ args out, proc.request = .createReservation args →
        proc.prog.outcome? = some out →
          Justified isoDateString .default 30 args proc.history out := by
  have checked : (((resolver isoDateString .inMemory .default 0).run lookedTooEarly
      ⟨eightAtSix, []⟩).any fun Q => decide (Q.shared.tables.reservations = [] ∧
        Q.procs.map (fun proc => proc.prog.outcome?) =
          [some (.ok (.created ⟨"Requested time is unavailable. Suggested available times:",
            ["18:30", "17:00"], none⟩)), some (.ok (.cancelled true))])) = true := by
    decide +kernel
  have start : AllStored isoDateString eightAtSix.tables := by
    intro r member
    cases List.mem_singleton.mp member
    exact ⟨by decide +kernel, by decide, by decide +kernel, List.mem_singleton_self _⟩
  obtain ⟨Q, ran, seen⟩ := (Option.any_eq_true _ _).mp checked
  obtain ⟨rows, outcomes⟩ := of_decide_eq_true seen
  refine ⟨Q, ran, rows, outcomes, fun proc member args out asked ended => ?_⟩
  exact unbooked_for_a_reason (D := 60) isoDateString .inMemory .default 0 rfl (by decide) rfl start
    ran member asked ended

end RestaurantAssistant
