import RestaurantAssistant.Accounts

/-!
# What a token is good for

A request that needs a user gets through exactly if it presents a token that a login has
returned and that has not expired when it is verified (`tokens_last`), in every interleaving
of the users' requests.  The login had found the password to fit.  Nothing else counts: not
that the password or the role has been changed since, nor that somebody has logged out.

That nobody makes up a signed token is an assumption on the requests (`Unforged`).
-/

namespace RestaurantAssistant

open Awaiting Js

/-! ## Logging in -/

/-- How a login came by its response: the user it found, whose password fits, and the time it
signed the token at. -/
structure LoggedIn (bcrypt : Bcrypt) (jwt : Jwt) (input : LoginInput)
    (h : History accountApi Accounts) (response : LoginResponse) (user : User) (issued : Nat) :
    Prop where
  found : ∃ s, (.user (.findByEmail input.email), s) ∈ h ∧ s.users.byEmail input.email = some user
  fits : bcrypt.compare input.password user.password = true
  signed : ∃ s, (.sign ⟨user.email, user.id⟩, s) ∈ h ∧ s.now = issued
  returned : response = ⟨jwt.sign ⟨user.email, user.id⟩ issued, user.toUserRecord⟩

/-! ## The guard -/

/-- Where a request that needs a user stands. -/
inductive Guarded (jwt : Jwt) : Option String → History accountApi Accounts →
    Async accountApi AccountResponse → Prop
  | waiting {token : Option String} {h : History accountApi Accounts}
      {p : Async accountApi AccountResponse} : p.finished = false → Guarded jwt token h p
  | rejected {token : Option String} {h : History accountApi Accounts} :
      Guarded jwt token h (.throw UserExn.rejected)
  | missing : Guarded jwt none [] (.throw (UserExn.unauthorized "Unauthorized"))
  | invalid {token : String} {s : Accounts} : jwt.verify token s.now = none →
      Guarded jwt (some token) [(.verify token, s)] (.throw (UserExn.unauthorized "Unauthorized"))
  | unknown {token : String} {s s' : Accounts} {payload : JwtPayload} :
      jwt.verify token s.now = some payload → s'.users.byId payload.sub = none →
      Guarded jwt (some token) [(.findById payload.sub, s'), (.verify token, s)]
        (.throw (UserExn.unauthorized "Unauthorized"))
  | passed {token : String} {s s' : Accounts} {payload : JwtPayload} :
      jwt.verify token s.now = some payload →
      Guarded jwt (some token) [(.findById payload.sub, s'), (.verify token, s)]
        (.pure (.loggedOut true))

/-- What a request keeps true by itself about logins and tokens. -/
structure Attests (bcrypt : Bcrypt) (jwt : Jwt) (request : AccountRequest)
    (h : History accountApi Accounts) (p : Async accountApi AccountResponse) : Prop where
  login : ∀ response, p = .pure (.loggedIn response) → ∃ input user issued,
    request = .login input ∧ LoggedIn bcrypt jwt input h response user issued
  guarded : ∀ token, request = .logout token → Guarded jwt token h p

section Programs

variable {bcrypt : Bcrypt} {jwt : Jwt} {request : AccountRequest} {h : History accountApi Accounts}

theorem Attests.awaits {call : AccountCall}
    {k : Except UserExn call.Reply → Async accountApi AccountResponse} :
    Attests bcrypt jwt request h (.await call k) := by
  refine ⟨fun response same => ?_, fun token _ => .waiting rfl⟩
  cases same

/-- A request of another kind never returns a token. -/
theorem Attests.other {p : Async accountApi AccountResponse}
    (noLogin : ∀ response, p ≠ .pure (.loggedIn response))
    (noGuard : ∀ token, request ≠ .logout token) :
    Attests bcrypt jwt request h p :=
  ⟨fun response same => absurd same (noLogin response),
    fun token same => absurd same (noGuard token)⟩

theorem attests_mutation (m : UserMutation) :
    (AccountRequest.handle (.mutation m)).Always (accountServer bcrypt jwt).interp
      (Attests bcrypt jwt (.mutation m)) [] := by
  refine (Async.always_map AccountResponse.saved).mono fun h p returns => ?_
  refine .other (fun response same => ?_) (fun token same => by cases same)
  obtain ⟨record, other⟩ := returns _ same
  cases other

theorem attests_users :
    (AccountRequest.handle .users).Always (accountServer bcrypt jwt).interp
      (Attests bcrypt jwt .users) [] := by
  refine (Async.always_map AccountResponse.listed).mono fun h p returns => ?_
  refine .other (fun response same => ?_) (fun token same => by cases same)
  obtain ⟨records, other⟩ := returns _ same
  cases other

theorem Attests.loginFails {input : LoginInput} {e : UserExn} :
    Attests bcrypt jwt (.login input) h (.throw e) :=
  .other (fun _ same => by cases same) (fun _ same => by cases same)

theorem attests_login (input : LoginInput) :
    (AccountRequest.handle (.login input)).Always (accountServer bcrypt jwt).interp
      (Attests bcrypt jwt (.login input)) [] := by
  refine always_user .awaits (fun s => .loginFails) fun c s r T answered => ?_
  obtain ⟨-, rfl, -⟩ := answer_findByEmail.mp answered
  cases found : s.users.byEmail input.email with
  | none => exact .loginFails
  | some user =>
    refine always_user .awaits (fun s => .loginFails) fun c s' r T answered => ?_
    obtain ⟨-, rfl, -⟩ := answer_compare.mp answered
    cases fits : bcrypt.compare input.password user.password with
    | false => exact .loginFails
    | true =>
      refine ⟨.awaits, fun c s'' r t answered => ?_⟩
      rw [answer_sign answered]
      refine ⟨fun response same => ?_, fun token same => by cases same⟩
      cases same
      refine ⟨input, user, s''.now, rfl, ⟨s, by simp, found⟩, fits, ⟨s'', by simp, rfl⟩, rfl⟩

theorem Attests.guards {token : Option String} {p : Async accountApi AccountResponse}
    (guarded : Guarded jwt token h p) (noLogin : ∀ response, p ≠ .pure (.loggedIn response)) :
    Attests bcrypt jwt (.logout token) h p := by
  refine ⟨fun response same => absurd same (noLogin response), fun token' same => ?_⟩
  cases same
  exact guarded

theorem attests_logout (token : Option String) :
    (AccountRequest.handle (.logout token)).Always (accountServer bcrypt jwt).interp
      (Attests bcrypt jwt (.logout token)) [] := by
  cases token with
  | none => exact .guards .missing fun _ same => by cases same
  | some token =>
    refine ⟨.awaits, fun c s r t answered => ?_⟩
    rw [answer_verify answered]
    cases verified : jwt.verify token s.now with
    | none => exact .guards (.invalid verified) fun _ same => by cases same
    | some payload =>
      refine ⟨.awaits, fun c s' r t answered => ?_⟩
      rcases answer_findById answered with rfl | rfl
      · exact .guards .rejected fun _ same => by cases same
      · cases found : s'.users.byId payload.sub with
        | none => exact .guards (.unknown verified found) fun _ same => by cases same
        | some user => exact .guards (.passed verified) fun _ same => by cases same

theorem attests_of_request (request : AccountRequest) :
    request.handle.Always (accountServer bcrypt jwt).interp (Attests bcrypt jwt request) [] := by
  cases request with
  | mutation m => exact attests_mutation m
  | users => exact attests_users
  | login input => exact attests_login input
  | logout token => exact attests_logout token

end Programs

/-! ## Tokens that were issued -/

/-- The token the request has returned. -/
def issuedToken (proc : Proc accountApi AccountRequest Accounts AccountResponse) : Option String :=
  match proc.prog with
  | .pure (.loggedIn response) => some response.accessToken
  | _ => none

/-- A token that a request presents is not a signed one, or has been returned by a login. -/
def Unforged (jwt : Jwt) (P : Pool accountApi AccountRequest Accounts AccountResponse) :
    Event AccountRequest (Option AccountChoice) Nat → Prop
  | .arrive (.logout (some token)) => (∀ payload issued, token ≠ jwt.sign payload issued) ∨
      ∃ issuer ∈ P.procs, issuedToken issuer = some token
  | _ => True

/-- The token comes from a login that found the password to fit, and is good at the time. -/
def GoodAt (bcrypt : Bcrypt) (jwt : Jwt)
    (P : Pool accountApi AccountRequest Accounts AccountResponse) (token : String)
    (now : Nat) : Prop :=
  ∃ issuer ∈ P.procs, ∃ input response user issued, issuer.request = .login input ∧
    issuer.prog = .pure (.loggedIn response) ∧ response.accessToken = token ∧
    LoggedIn bcrypt jwt input issuer.history response user issued ∧ now < issued + jwt.lifetime

/-- The token was good when the request had it verified. -/
def PresentedGood (bcrypt : Bcrypt) (jwt : Jwt)
    (P : Pool accountApi AccountRequest Accounts AccountResponse) (token : Option String)
    (h : History accountApi Accounts) : Prop :=
  ∃ t s, token = some t ∧ (.verify t, s) ∈ h ∧ GoodAt bcrypt jwt P t s.now

/-- The token was returned before the other request's calls were made, and everybody known to
that login was still known at them. -/
def ReturnedBefore (P : Pool accountApi AccountRequest Accounts AccountResponse)
    (h : History accountApi Accounts) (token : String) : Prop :=
  ∃ issuer ∈ P.procs, issuedToken issuer = some token ∧
    ∀ step ∈ issuer.history, ∀ step' ∈ h, Persists step.2.users step'.2.users

structure TokensKept (bcrypt : Bcrypt) (jwt : Jwt) (T : Users)
    (P : Pool accountApi AccountRequest Accounts AccountResponse) : Prop where
  orderly : Orderly bcrypt jwt T (fun _ => True) P
  attests : P.Always (Attests bcrypt jwt) (accountServer bcrypt jwt).interp
  returned : ∀ proc ∈ P.procs, ∀ token, proc.request = .logout (some token) →
    (∀ payload issued, token ≠ jwt.sign payload issued) ∨ ReturnedBefore P proc.history token

section Runs

variable {bcrypt : Bcrypt} {jwt : Jwt} {T : Users} {token : String}
  {P P' : Pool accountApi AccountRequest Accounts AccountResponse}
  {e : Event AccountRequest (Option AccountChoice) Nat}
  {issuer proc : Proc accountApi AccountRequest Accounts AccountResponse}

theorem of_issuedToken (issued : issuedToken issuer = some token) :
    ∃ response, issuer.prog = .pure (.loggedIn response) ∧ response.accessToken = token := by
  unfold issuedToken at issued
  split at issued
  · rename_i response returned
    exact ⟨response, returned, Option.some.inj issued⟩
  · cases issued

theorem finished_of_issuedToken (issued : issuedToken issuer = some token) :
    issuer.prog.finished = true := by
  obtain ⟨response, returned, -⟩ := of_issuedToken issued
  rw [returned]
  rfl

/-- A request makes one more call, or another one does. -/
theorem ReturnedBefore.fire {h : History accountApi Accounts}
    (fired : (accountServer bcrypt jwt).fire e P = some P') (before : ReturnedBefore P h token) :
    ReturnedBefore P' h token := by
  obtain ⟨issuer, member, issued, persists⟩ := before
  exact ⟨issuer, Server.fire_finished fired member (finished_of_issuedToken issued),
    issued, persists⟩

theorem ReturnedBefore.call {h : History accountApi Accounts} {call : AccountCall}
    (since : P.Since fun s s' => Persists s.users s'.users) (before : ReturnedBefore P h token) :
    ReturnedBefore P ((call, P.shared) :: h) token := by
  obtain ⟨issuer, member, issued, persists⟩ := before
  refine ⟨issuer, member, issued, fun step past step' recent => ?_⟩
  rcases List.mem_cons.mp recent with rfl | recent
  · exact since issuer member step past
  · exact persists step past step' recent

theorem fire_tokensKept (unforged : Unforged jwt P e)
    (fired : (accountServer bcrypt jwt).fire e P = some P') (kept : TokensKept bcrypt jwt T P) :
    TokensKept bcrypt jwt T P' := by
  have since : P.Since fun s s' => Persists s.users s'.users :=
    fun proc member step past => (kept.orderly.since proc member step past).2
  refine ⟨(fire_orderly (fun _ _ => trivial) fired kept.orderly).1, ?_, ?_⟩
  · exact Server.fire_always _ (fun request _ => attests_of_request request) fired kept.attests
  intro proc member token presents
  have fired' := fired
  rcases Server.fire_cases fired with ⟨r, rfl, rfl⟩ |
    ⟨i, c, old, call, k, r, s', rfl, found, suspended, answered, rfl⟩ | ⟨x, rfl, rfl⟩
  · rcases List.mem_append.mp member with member | member
    · exact (kept.returned proc member token presents).imp_right (.fire fired')
    · cases List.mem_singleton.mp member
      cases presents
      refine unforged.imp_right fun issued => ?_
      obtain ⟨issuer, issuerMember, issued⟩ := issued
      exact ⟨issuer, List.mem_append_left _ issuerMember, issued, fun _ _ _ none => by cases none⟩
  · rcases List.mem_or_eq_of_mem_set member with member | rfl
    · exact (kept.returned proc member token presents).imp_right (.fire fired')
    · refine (kept.returned old (List.mem_of_getElem? found) token presents).imp_right ?_
      intro before
      exact (before.call since).fire fired'
  · exact (kept.returned proc member token presents).imp_right (.fire fired')

/-- A signed token verifies as what it was signed for, or not at all. -/
theorem Jwt.verify_signed {payload payload' : JwtPayload} {issued now : Nat}
    (verified : jwt.verify (jwt.sign payload issued) now = some payload') :
    payload = payload' ∧ now < issued + jwt.lifetime := by
  rw [jwt.verify_sign] at verified
  split at verified
  · rename_i inTime
    exact ⟨Option.some.inj verified, inTime⟩
  · cases verified

/-- A token that verifies is good, and stands for somebody who is known from then on. -/
theorem goodAt_of_verify {s : Accounts} {payload : JwtPayload} (kept : TokensKept bcrypt jwt T P)
    (member : proc ∈ P.procs) (presents : proc.request = .logout (some token))
    (verified : jwt.verify token s.now = some payload) :
    GoodAt bcrypt jwt P token s.now ∧
      ∀ step ∈ proc.history, ∃ user, step.2.users.byId payload.sub = some user := by
  rcases kept.returned proc member token presents with unsigned |
    ⟨issuer, issuerMember, issued, persists⟩
  · rw [jwt.verify_other unsigned] at verified
    cases verified
  obtain ⟨response, returned, rfl⟩ := of_issuedToken issued
  obtain ⟨input, user, time, request, loggedIn⟩ :=
    (kept.attests issuer issuerMember).here.login response returned
  have loggedIn' := loggedIn
  obtain ⟨⟨then_, step, found⟩, -, -, rfl⟩ := loggedIn
  obtain ⟨rfl, inTime⟩ := Jwt.verify_signed verified
  refine ⟨⟨issuer, issuerMember, input, _, user, time, request, returned, rfl,
    loggedIn', inTime⟩, ?_⟩
  intro step' past
  obtain ⟨user', member', same⟩ :=
    (persists _ step step' past).exists_mem (List.mem_of_find?_eq_some found)
  have sameId : user'.id = user.id := congrArg Identity.id same
  cases known : step'.2.users.byId user.id with
  | some other => exact ⟨other, rfl⟩
  | none => exact absurd (List.find?_eq_none.mp known user' member') (by simp [sameId])

/-- A good token verifies. -/
theorem GoodAt.verify {now : Nat} (good : GoodAt bcrypt jwt P token now) :
    jwt.verify token now ≠ none := by
  obtain ⟨issuer, -, input, response, user, issued, -, -, rfl, loggedIn, inTime⟩ := good
  rw [loggedIn.returned, jwt.verify_sign, if_pos inTime]
  intro none
  cases none

/-- **Tokens last.**  In every interleaving of the users' requests, with any calls rejected,
in which no signed token is made up: a request that needs a user, once it has ended without
its call being rejected, got through exactly if the token it presented came from a login
whose password fitted and had not expired when it was verified, and was refused otherwise. -/
theorem tokens_last (bcrypt : Bcrypt) (jwt : Jwt) {s : Accounts}
    {es : List (Event AccountRequest (Option AccountChoice) Nat)}
    {P : Pool accountApi AccountRequest Accounts AccountResponse}
    (ran : (accountServer bcrypt jwt).run es ⟨s, []⟩ = some P)
    (along : (accountServer bcrypt jwt).Along (Unforged jwt) es ⟨s, []⟩)
    {proc : Proc accountApi AccountRequest Accounts AccountResponse} (member : proc ∈ P.procs)
    {token : Option String} (presents : proc.request = .logout token)
    (ended : proc.prog.finished = true) :
    proc.prog = .throw UserExn.rejected ∨
      (PresentedGood bcrypt jwt P token proc.history ∧ proc.prog = .pure (.loggedOut true)) ∨
      (¬ PresentedGood bcrypt jwt P token proc.history ∧
        proc.prog = .throw (UserExn.unauthorized "Unauthorized")) := by
  have start : TokensKept bcrypt jwt s.users ⟨s, []⟩ := by
    refine ⟨orderly_start, Pool.always_nil _, fun proc member => ?_⟩
    cases member
  have kept : TokensKept bcrypt jwt s.users P :=
    Server.run_preserves (TokensKept bcrypt jwt s.users)
      (fun held here fired => fire_tokensKept here fired held) ran along start
  have guarded := (kept.attests proc member).here.guarded token presents
  generalize same : proc.history = h at guarded
  generalize proc.prog = p at guarded ended
  cases guarded with
  | waiting waits =>
    rw [waits] at ended
    cases ended
  | rejected => exact .inl rfl
  | missing =>
    refine .inr (.inr ⟨?_, rfl⟩)
    rintro ⟨t, s, absent, -⟩
    cases absent
  | invalid refused =>
    refine .inr (.inr ⟨?_, rfl⟩)
    rintro ⟨t, s, given, verified, good⟩
    cases given
    cases List.mem_singleton.mp verified
    exact good.verify refused
  | unknown verified absent =>
    -- whoever has logged in is never forgotten
    obtain ⟨-, known⟩ := goodAt_of_verify kept member presents verified
    obtain ⟨user, found⟩ := known _ (by rw [same]; exact List.mem_cons_self)
    rw [absent] at found
    cases found
  | passed verified =>
    obtain ⟨good, -⟩ := goodAt_of_verify kept member presents verified
    exact .inr (.inl ⟨⟨_, _, rfl, List.mem_cons_of_mem _ List.mem_cons_self, good⟩, rfl⟩)

end Runs

/-! ## A token after its password -/

/-- What Alice's token says. -/
def aliceToken : String := Jwt.transparent.sign ⟨"alice@example.com", "alice"⟩ 0

/-- Alice logs in and changes her password.  Her token still gets her through a second before
the hour is over, also when she has just logged out with it, and no longer then. -/
def oldToken : List (Event AccountRequest (Option AccountChoice) Nat) :=
  let reply : Option AccountChoice := some (.user .reply)
  let salted : Option AccountChoice := some (.user (.salt (Vector.replicate 22 's')))
  let logout : AccountRequest := .logout (some aliceToken)
  [.arrive (.login ⟨"alice@example.com", "secret"⟩), .resume 0 reply, .resume 0 reply,
    .resume 0 reply,
    .arrive (.mutation (.updateUser "alice" ⟨.given "secret2", .undefined⟩)), .resume 1 reply,
    .resume 1 salted, .resume 1 (some (.user (.generated "" 1))), .env 3599,
    .arrive logout, .resume 2 reply, .resume 2 reply,
    .arrive logout, .resume 3 reply, .resume 3 reply, .env 1,
    .arrive logout, .resume 4 reply]

/-- A presented token has been returned by a login. -/
def presentsReturned (P : Pool accountApi AccountRequest Accounts AccountResponse) :
    Event AccountRequest (Option AccountChoice) Nat → Bool
  | .arrive (.logout (some token)) => P.procs.any fun proc => issuedToken proc = some token
  | _ => true

theorem unforged_of_returned {P : Pool accountApi AccountRequest Accounts AccountResponse}
    {e : Event AccountRequest (Option AccountChoice) Nat} (returned : presentsReturned P e = true) :
    Unforged .transparent P e := by
  unfold presentsReturned at returned
  split at returned
  · obtain ⟨issuer, member, issued⟩ := List.any_eq_true.mp returned
    exact .inr ⟨issuer, member, of_decide_eq_true issued⟩
  · rename_i other
    unfold Unforged
    split
    · exact absurd rfl (other _)
    · trivial

/-- What has become of the three requests with the token. -/
def presentedOutcomes (P : Pool accountApi AccountRequest Accounts AccountResponse) : List Bool :=
  (P.procs.filter fun proc => proc.request = .logout (some aliceToken)).map fun proc =>
    proc.prog.result?.isSome

theorem tokens_last_old_token :
    ∃ P, (accountServer .transparent .transparent).run oldToken ⟨aliceAlone, []⟩ = some P ∧
      P.shared.users.rows = [aliceAs "secret2" .staff 1] ∧
      presentedOutcomes P = [true, true, false] ∧
      ∀ proc ∈ P.procs, proc.request = .logout (some aliceToken) → proc.prog.finished = true →
        proc.prog = .throw UserExn.rejected ∨
          (PresentedGood .transparent .transparent P (some aliceToken) proc.history ∧
            proc.prog = .pure (.loggedOut true)) ∨
          (¬ PresentedGood .transparent .transparent P (some aliceToken) proc.history ∧
            proc.prog = .throw (UserExn.unauthorized "Unauthorized")) := by
  have checked : (((accountServer .transparent .transparent).checkedRun presentsReturned oldToken
      ⟨aliceAlone, []⟩).any fun P => decide (P.shared.users.rows = [aliceAs "secret2" .staff 1]) &&
        decide (presentedOutcomes P = [true, true, false])) = true := by
    decide +kernel
  obtain ⟨P, ran, seen⟩ := (Option.any_eq_true _ _).mp checked
  rw [Bool.and_eq_true] at seen
  obtain ⟨ran, along⟩ := Server.of_checkedRun (fun _ _ holds => unforged_of_returned holds) ran
  refine ⟨P, ran, of_decide_eq_true seen.1, of_decide_eq_true seen.2, ?_⟩
  intro proc member presents ended
  exact tokens_last .transparent .transparent ran along member presents ended

end RestaurantAssistant
