import RestaurantAssistant.Coherence

/-!
# The cache is transparent to sequential clients

Served one after the other, requests get from the service the responses they
would get without a cache, wherever entries expire in between.
-/

namespace RestaurantAssistant

open Awaiting Js

variable {db : QueryEngine} {cfg : Config} {rounds : Nat} {w w' : World}

/-- Are the times of the request as its input type declares them? -/
def Request.conform : Request → Bool
  | .query q => q.conform
  | .mutation _ => true

/-- **One request.**  On a coherent cache a request has the outcome and the effect
it has without a cache, and the cache stays coherent. -/
theorem request_transparent {r : Request} {out : Except Exn Response} (conform : r.conform = true)
    (coherent : Coherent db cfg w) (run : Eval (interp db) (r.handle cfg rounds) w out w') :
    direct db (r.handle cfg rounds) w.tables = some (out, w'.tables) ∧ Coherent db cfg w' := by
  cases r with
  | mutation m =>
    have same := (CacheBlind.mutation m w out w'.tables).mpr ⟨w', run, rfl⟩
    exact ⟨eval_cacheless_iff.mp same, coherent_of_mutation coherent run.amid⟩
  | query q =>
    obtain ⟨out', served, rfl⟩ := Eval.map_iff.mp run
    have answered : ∃ v, fresh db cfg w.tables q = some v ∧ out' = .ok v := by
      rcases (eval_query conform).mp served with ⟨v, hit, same, _⟩ | ⟨_, v, answer, same, _⟩
      · obtain ⟨e, member, key, rfl⟩ := Redis.exists_of_get hit
        exact ⟨_, coherent e member q conform key.symm, same⟩
      · exact ⟨v, answer, same⟩
    obtain ⟨tables, entries⟩ := entries_of_query conform served coherent fun e key answer =>
      FreshEntry.of_query conform key answer
    obtain ⟨v, answer, rfl⟩ := answered
    refine ⟨?_, ?_⟩
    · have done : direct db (q.handle cfg) w.tables = some (.ok v, w.tables) := by
        rw [fresh_eq] at answer
        rw [direct_query, answer]
        rfl
      rw [tables]
      exact direct_bind _ done
    · unfold Coherent
      rw [tables]
      exact entries

/-- A sequential run keeps the cache coherent, and its responses are those of the same
requests on the service with no cache. -/
theorem transparent_of_session {T : Tables} {log : List (Request × Except Exn Response)}
    (session : (server db cfg rounds).Session (fun _ r => r.conform = true) ⟨T, .empty⟩ log w) :
    Coherent db cfg w ∧
      (cachelessServer db cfg rounds).respond (fun _ _ => ()) (log.map Prod.fst) T =
        some (log.map Prod.snd, w.tables) := by
  refine session.preserves (fun log w => Coherent db cfg w ∧
    (cachelessServer db cfg rounds).respond (fun _ _ => ()) (log.map Prod.fst) T =
      some (log.map Prod.snd, w.tables)) ?_ ?_ ⟨?_, rfl⟩
  · intro log t r out u now permitted served
    obtain ⟨coherent, before⟩ := now
    obtain ⟨last, coherent'⟩ := request_transparent permitted coherent served
    refine ⟨coherent', ?_⟩
    rw [List.map_append, List.map_append]
    exact Server.respond_concat before last
  · intro log t key now
    obtain ⟨coherent, before⟩ := now
    exact ⟨fun e member => coherent e (Redis.mem_del.mp member).1, before⟩
  · intro e member
    cases member

/-- **Cache transparency.**  The responses of every sequential run are those of
the same requests on the service with no cache. -/
theorem responses_as_without_cache {T : Tables} {log : List (Request × Except Exn Response)}
    (session : (server db cfg rounds).Session (fun _ r => r.conform = true) ⟨T, .empty⟩ log w) :
    (cachelessServer db cfg rounds).respond (fun _ _ => ()) (log.map Prod.fst) T =
      some (log.map Prod.snd, w.tables) := (transparent_of_session session).2

/-- A full slot is found full from the cache, and free after the cancellation. -/
theorem responses_as_without_cache_booked_and_cancelled :
    let check : Query := .checkAvailability ⟨"2025-03-10", .given "18:00", .undefined, 1⟩
    let requests : List Request :=
      [.mutation (.createReservation ⟨"Ada", "2025-03-10", "18:00", 10⟩), .query check,
        .query check, .mutation (.cancelReservation 1), .query check]
    ∃ outs w, (server .inMemory .default 0).Session (fun _ r => r.conform = true) .empty
        (requests.zip outs) w ∧
      (cachelessServer .inMemory .default 0).respond (fun _ _ => ())
        ((requests.zip outs).map Prod.fst) .empty =
          some ((requests.zip outs).map Prod.snd, w.tables) := by
  intro check requests
  have serves : ((server .inMemory .default 0).checkedRespond (fun _ r => r.conform) scanAll
      requests .empty).isSome = true := by
    decide +kernel
  obtain ⟨⟨outs, w⟩, served⟩ := Option.isSome_iff_exists.mp serves
  have start : (server .inMemory .default 0).Session (fun _ r => r.conform = true)
      .empty [] .empty :=
    .nil
  have session := start.append_respond (fun _ _ conform => conform) served
  exact ⟨outs, w, session, responses_as_without_cache session⟩

end RestaurantAssistant
