import RestaurantAssistant.Accounts
import RestaurantAssistant.Async.Serial

/-!
# In what order users are changed

Registrations and updates in flight together come to the same as one after the other, in the
order they are saved, as long as no update saves over a row that has changed since it was
read (`mutations_serialize`).  Registrations need no such care: the unique columns of the
table make up for the checks that are out of date by the time the row is saved.
-/

namespace RestaurantAssistant

open Awaiting Js

/-- A mutation that has succeeded, with what it returned. -/
def succeeded (proc : Proc accountApi AccountRequest Accounts AccountResponse) :
    Option (UserMutation × Except UserExn UserRecord) :=
  match proc.request with
  | .mutation m => (savedRecord proc.prog).map fun record => (m, .ok record)
  | _ => none

/-- A request that is about to save finds the row it has read in the table. -/
def undisturbed (P : Pool accountApi AccountRequest Accounts AccountResponse) :
    Event AccountRequest (Option AccountChoice) Nat → Bool
  | .resume i _ => (P.procs[i]?).all fun proc => !proc.prog.next?.any AccountCall.saves ||
      (proc.history.filterMap readRow).all fun old => decide (old ∈ P.shared.users.rows)
  | _ => true

section Alone

variable {bcrypt : Bcrypt} {T T' : Users} {m : UserMutation} {row : User} {entity : UserDraft}
  {id : String} {now : Int}

theorem eval_user {α : Type} {call : UserCall} {k : Except UserExn call.Reply → Async userApi α}
    {c : UserChoice} {r : Except UserExn call.Reply} {T₁ : Users} {out : Except UserExn α}
    (answered : (userInterp bcrypt).answer c call T = some (r, T₁))
    (rest : Eval (userServer bcrypt).interp (k r) T₁ out T') :
    Eval (userServer bcrypt).interp (.await call k) T out T' :=
  .await (some c) answered rest

theorem eval_saving (saved : T.save id now entity = (.ok row, T')) :
    Eval (userServer bcrypt).interp
      (UserService.save entity >>= fun savedUser => pure savedUser.toUserRecord) T
      (.ok row.toUserRecord) T' :=
  eval_user (c := .generated id now) (congrArg some saved) .pure

/-- Where a row can be appended, no other has its value in a unique column. -/
theorem find?_of_unique {rows : List User} {column : User → String} {value : String}
    (unique : ((rows ++ [row]).map column).Nodup) (same : column row = value) :
    rows.find? (fun user => column user = value) = none := by
  rw [List.map_append, List.nodup_append] at unique
  refine List.find?_eq_none.mpr fun user member taken => ?_
  refine unique.2.2 _ (List.mem_map_of_mem member) _ (List.mem_singleton_self _) ?_
  rw [of_decide_eq_true taken, same]

/-- A registration that can be saved would have passed its checks. -/
theorem eval_createUser_of_saved {input : CreateUserInput}
    (prepared : Prepares bcrypt (.createUser input) none entity)
    (saved : T.save id now entity = (.ok row, T')) :
    Eval (userServer bcrypt).interp (UserMutation.handle (.createUser input)) T
      (.ok row.toUserRecord) T' := by
  cases prepared with
  | createUser salt =>
    rcases save_cases saved with ⟨failed, -⟩ | ⟨row', same, -, name, email, -, -, rows⟩
    · cases failed
    cases same
    have rows : T'.rows = T.rows ++ [row] := rows
    have byName : T.byUsername input.username = none := by
      have unique := T'.usernames
      rw [rows] at unique
      exact find?_of_unique unique name
    have byEmail : T.byEmail input.email = none := by
      have unique := T'.emails
      rw [rows] at unique
      exact find?_of_unique unique email
    refine eval_user (answer_findByUsername.mpr ⟨rfl, rfl, rfl⟩) ?_
    rw [byName]
    refine eval_user (answer_findByEmail.mpr ⟨rfl, rfl, rfl⟩) ?_
    rw [byEmail]
    refine eval_user (answer_hash.mpr ⟨salt, rfl, rfl, rfl⟩) ?_
    exact eval_saving saved

/-- An update that finds the row it has read would read it again. -/
theorem eval_updateUser_of_saved {old : User} (prepared : Prepares bcrypt m (some old) entity)
    (member : old ∈ T.rows) (saved : T.save id now entity = (.ok row, T')) :
    Eval (userServer bcrypt).interp m.handle T (.ok row.toUserRecord) T' := by
  cases prepared with
  | hashed salt named truthy =>
    cases named
    refine eval_user (answer_findByUsername.mpr ⟨rfl, rfl, rfl⟩) ?_
    rw [Users.byUsername_of_mem member]
    simp only [truthy]
    refine eval_user (answer_hash.mpr ⟨salt, rfl, rfl, rfl⟩) ?_
    exact eval_saving saved
  | unhashed named falsy =>
    cases named
    refine eval_user (answer_findByUsername.mpr ⟨rfl, rfl, rfl⟩) ?_
    rw [Users.byUsername_of_mem member]
    simp only [falsy]
    exact eval_saving saved

end Alone

section Order

variable {bcrypt : Bcrypt} {jwt : Jwt}

theorem mem_of_undisturbed {P : Pool accountApi AccountRequest Accounts AccountResponse} {i : Nat}
    {c : Option AccountChoice} {proc : Proc accountApi AccountRequest Accounts AccountResponse}
    {call : AccountCall} {k : Except UserExn call.Reply → Async accountApi AccountResponse}
    {old : User}
    (here : undisturbed P (.resume i c) = true) (found : P.procs[i]? = some proc)
    (suspended : proc.prog = .await call k) (saves : call.saves = true)
    (read : old ∈ proc.history.filterMap readRow) : old ∈ P.shared.users.rows := by
  simp only [undisturbed, found, Option.all_some, suspended, Async.next?, Option.any_some, saves,
    Bool.not_true, Bool.false_or] at here
  exact of_decide_eq_true (List.all_eq_true.mp here old read)

/-- One step of a request changes nothing, or the request saves and has succeeded. -/
theorem commits_alone {proc : Proc accountApi AccountRequest Accounts AccountResponse}
    {call : AccountCall} {k : Except UserExn call.Reply → Async accountApi AccountResponse}
    {c : Option AccountChoice} {r : Except UserExn call.Reply} {s s' : Accounts}
    (drafts : Drafts bcrypt proc.request proc.history proc.prog)
    (later : Drafts bcrypt proc.request ((call, s) :: proc.history) (k r))
    (suspended : proc.prog = .await call k)
    (still : call.saves = true → ∀ old ∈ proc.history.filterMap readRow, old ∈ s.users.rows)
    (answered : (accountServer bcrypt jwt).interp.answer c call s = some (r, s')) :
    (userServer bcrypt).CommitsAlone (fun _ _ => True) Accounts.users succeeded s s' proc
      (proc.resumed call s (k r)) := by
  have unfinished : succeeded proc = none := by
    unfold succeeded
    rw [suspended]
    cases proc.request <;> rfl
  have fails : ∀ {p}, savedRecord p = none → succeeded (proc.resumed call s p) = none := by
    intro p unsaved
    unfold succeeded Proc.resumed
    rw [unsaved]
    cases proc.request <;> rfl
  cases saves : call.saves with
  | false =>
    refine .inl ⟨by rw [unchanged_of_answer saves answered], ?_⟩
    rw [unfinished]
    refine fails (Option.eq_none_iff_forall_ne_some.mpr fun record returned => ?_)
    -- nothing is returned as saved but right after saving
    obtain ⟨step, last, saved⟩ := later.saved (by rw [returned]; rfl)
    cases last
    rw [saves] at saved
    cases saved
  | true =>
    rcases call with (_ | _ | entity | _ | _) | _ | _ | _ | _ <;> try cases saves
    rw [suspended] at drafts
    obtain ⟨program, m, request, prepared⟩ := drafts.saves entity rfl
    cases program
    rcases answer_save_cases answered with ⟨rfl, rfl⟩ | ⟨id, now, saved⟩
    · exact .inl ⟨rfl, (fails rfl).trans unfinished.symm⟩
    rcases save_cases saved with ⟨rfl, same⟩ | ⟨row, rfl, -⟩
    · exact .inl ⟨same, (fails rfl).trans unfinished.symm⟩
    refine .inr ⟨(m, .ok row.toUserRecord), unfinished, ?_, trivial, ?_⟩
    · unfold succeeded Proc.resumed
      rw [request]
      rfl
    · cases read : (proc.history.filterMap readRow).head? with
      | none =>
        rw [read] at prepared
        cases prepared with
        | createUser salt => exact eval_createUser_of_saved (.createUser salt) saved
      | some old =>
        rw [read] at prepared
        exact eval_updateUser_of_saved prepared (still rfl old (List.mem_of_head? read)) saved

/-- **Mutations serialize.**  In every interleaving of the users' requests, with any calls
rejected, in which no update saves over a row that has changed since it was read, the table
is that of a session of the mutations that have succeeded, each alone, with the same
results. -/
theorem mutations_serialize (bcrypt : Bcrypt) (jwt : Jwt) {s : Accounts}
    {es : List (Event AccountRequest (Option AccountChoice) Nat)}
    {P : Pool accountApi AccountRequest Accounts AccountResponse}
    (ran : (accountServer bcrypt jwt).run es ⟨s, []⟩ = some P)
    (along : (accountServer bcrypt jwt).Along (fun Q e => undisturbed Q e = true) es ⟨s, []⟩) :
    ∃ log, (userServer bcrypt).Session (fun _ _ => True) s.users log P.shared.users ∧
      (P.procs.filterMap succeeded).Perm log := by
  refine Server.run_serializes (W := userServer bcrypt) (Drafts bcrypt)
    (fun _ => drafts_of_request _)
    ?_ ?_ (fun _ _ => rfl) ran along (Pool.always_nil _)
  · intro request
    unfold succeeded
    cases request with
    | mutation m => cases m <;> rfl
    | _ => rfl
  · intro Q i c proc call k r s' always here found suspended answered
    have drafts := always proc (List.mem_of_getElem? found)
    have now := drafts.here
    rw [suspended] at drafts
    refine commits_alone now (drafts.2 c _ r s' answered).here suspended ?_ answered
    intro saves old read
    exact mem_of_undisturbed here found suspended saves read

end Order

/-! ## Two registrations of one name -/

/-- Two registrations of one name pass their checks together, and the second one is refused
by the table; the first user is then promoted. -/
def registeredTwice : List (Event AccountRequest (Option AccountChoice) Nat) :=
  let register (email : String) : AccountRequest :=
    .mutation (.createUser ⟨"alice", email, "secret", .undefined⟩)
  let salted : Option AccountChoice := some (.user (.salt (Vector.replicate 22 's')))
  [.arrive (register "alice@example.com"), .arrive (register "alice@example.org"),
    .resume 0 (some (.user .reply)), .resume 1 (some (.user .reply)),
    .resume 0 (some (.user .reply)), .resume 1 (some (.user .reply)),
    .resume 0 salted, .resume 1 salted,
    .resume 0 (some (.user (.generated "alice" 0))),
    .resume 1 (some (.user (.generated "other" 0))),
    .arrive (.mutation (.updateUser "alice" ⟨.undefined, .given "admin"⟩)),
    .resume 2 (some (.user .reply)), .resume 2 (some (.user (.generated "" 1)))]

theorem mutations_serialize_registered_twice :
    ∃ P, (accountServer .transparent .transparent).run registeredTwice ⟨⟨.empty, 0⟩, []⟩ = some P ∧
      P.shared.users.rows = [aliceAs "secret" .admin 1] ∧
      ∃ log, (userServer .transparent).Session (fun _ _ => True) .empty log P.shared.users ∧
        (P.procs.filterMap succeeded).Perm log := by
  have checked : (((accountServer .transparent .transparent).checkedRun undisturbed registeredTwice
      ⟨⟨.empty, 0⟩, []⟩).any fun P => decide (P.shared.users.rows = [aliceAs "secret" .admin 1])) =
      true := by
    decide +kernel
  obtain ⟨P, ran, seen⟩ := (Option.any_eq_true _ _).mp checked
  obtain ⟨ran, along⟩ := Server.of_checkedRun (fun _ _ holds => holds) ran
  exact ⟨P, ran, of_decide_eq_true seen, mutations_serialize .transparent .transparent ran along⟩

end RestaurantAssistant
