/-
  File:      Eri/LogoutEndpoint.lean
  Subject:   The logout endpoint (src/web.rs, logout_get, logout_rp, logout_post and
             logout_response).

  A client sends the browser here with at most four parameters. A challenge is begun for the
  session of the browser; an ID token answers it at once where the client may be left that way,
  else the user confirms it by a form that comes back with the secret of the challenge.

  * `readLogout`, `LogoutRequest` -- what is read of a request, and what its checks leave;
  * `logoutRp`, `logoutGet`, `logoutPost` -- the handlers;
  * `LogoutCall`, `LogoutEnds` -- the calls they make and what they answer;
  * **`logoutGet_meets`**, **`logoutPost_meets`**.
-/
import Eri.LogoutModes
import Eri.Tokens
import Eri.Specs.Web

namespace Eri

/-! The values of replies; the handlers take any error alike. -/

def Reply.asChallenge : Reply → Option (Except BrowserError LogoutChallenge)
  | .challenge r => some (r.mapError fun _ => .invalid)
  | _ => none

def Reply.asHinted : Reply → Option (Except BrowserError (Option LogoutOutcome))
  | .hinted r => some (r.mapError fun _ => .invalid)
  | _ => none

def Reply.asFinished : Reply → Option (Except BrowserError LogoutOutcome)
  | .finished r => some (r.mapError fun _ => .invalid)
  | _ => none

/-- What an answer to a challenge came to, if it logged out. -/
def Call.leaves : Call → Reply → Option LogoutOutcome
  | .finish .., .finished (.ok outcome) => some outcome
  | .finishHint .., .hinted (.ok outcome) => outcome
  | _, _ => none

namespace Web

open Sql (Process)
open Sql.Process

/-! ## 1. Requests -/

/-- The parameters of a client's request. -/
structure LogoutParams where
  client : Option String
  redirect : Option String
  state : Option String
  hint : Option String

/-- The four parameters, each given at most once, and no other. -/
def readLogout (q : List (String × String)) : Option LogoutParams :=
  if q.any fun e =>
      e.1 ∉ ["client_id", "post_logout_redirect_uri", "state", "id_token_hint"] then none
  else
    Except.toOption do
      let client ← optional q "client_id"
      let redirect ← optional q "post_logout_redirect_uri"
      let state ← optional q "state"
      let hint ← optional q "id_token_hint"
      pure { client, redirect, state, hint }

/-- **A request that passed its checks**: a return has a client, a state has a return, and the
    client is the one the hint was issued to. -/
structure LogoutRequest where
  client : Option String
  redirect : Option String
  state : Option String
  hint : Option IdTokenClaims
  named : redirect.isSome = true → client.isSome = true
  stated : state.isSome = true → redirect.isSome = true
  agrees : ∀ h ∈ hint, client = some h.aud

/-- The client a request names, by itself or by its hint. -/
def LogoutParams.named (a : LogoutParams) (hint : Option IdTokenClaims) : Option String :=
  a.client.or (hint.map fun h => h.aud)

theorem LogoutParams.named_agrees {a : LogoutParams} {hint : Option IdTokenClaims}
    (h : (a.client.any fun c => hint.any fun h => c != h.aud) = false) :
    ∀ h ∈ hint, a.named hint = some h.aud := by
  rintro t rfl
  unfold LogoutParams.named
  cases hc : a.client with
  | none => rfl
  | some c =>
      rw [hc] at h
      have hsame : c = t.aud := by simpa using h
      rw [hsame]
      rfl

/-- The checks before the session. -/
def LogoutParams.check (a : LogoutParams) (hint : Option IdTokenClaims) : Option LogoutRequest :=
  if hagrees : (a.client.any fun c => hint.any fun h => c != h.aud) = false then
    if h : (a.redirect.isSome = true → (a.named hint).isSome = true) ∧
        (a.state.isSome = true → a.redirect.isSome = true) then
      some ⟨a.named hint, a.redirect, a.state, hint, h.1, h.2, a.named_agrees hagrees⟩
    else none
  else none

/-- The content type of a form, whatever its parameters. -/
def isForm (headers : HeaderMap) : Bool :=
  ((getAll headers "content-type").head?.bind toStr).any fun v =>
    Cimd.lower (Cimd.trim ((v.splitOn ';').headD [])) = "application/x-www-form-urlencoded"

/-- The parameters are those of a form of ours. -/
def confirmation (q : List (String × String)) : Bool :=
  q.any fun e => e.1 = "challenge" ∨ e.1 = "csrf"

/-- The challenge and the secret of a form that confirms. -/
def readConfirmation (q : List (String × String)) : Option (Uuid × String) :=
  if q.any fun e => e.1 ≠ "challenge" ∧ e.1 ≠ "csrf" then none
  else
    match optional q "challenge", optional q "csrf" with
    | .ok (some id), .ok (some csrf) => (parseUuid id.toList).map fun id => (id, csrf)
    | _, _ => none

/-! ## 2. The handlers -/

/-- What the handlers answer: a response, or the form of a challenge. -/
inductive LogoutAnswer where
  | page (r : Response)
  | form (challenge : LogoutChallenge)

/-- `logout_response`: back to where the logout was asked for, without the session's cookie. -/
def logoutResponse (p : Provider) (v : LogoutOutcome) : Response :=
  ⟨.redirect v.redirectUri [("state", v.state)], [⟨sessionCookie p.secure, "", some 0, p.secure⟩]⟩

/-- `local_error`. -/
def LogoutAnswer.refused (message : String) : LogoutAnswer := .page (localError message)

section Handlers

variable (C : HttpCrates) {K : KeyCrates} (keys : SigningKeys K) (p : Provider)

/-- The claims of the hint, verified at `now`; none verify for no hint. -/
def LogoutParams.verify (now : Nat) (a : LogoutParams) : Option (Option IdTokenClaims) :=
  match a.hint with
  | none => some none
  | some token => (verifyIdLogout keys token p.issuer now).toOption.map some

/-- What is read of a request, and passes the checks before the session. -/
def logoutRequest (now : Nat) (q : List (String × String)) : Option LogoutRequest := do
  let a ← readLogout q
  a.check (← a.verify keys p now)

/-- The call that begins the challenge of a request. -/
def LogoutRequest.begins (r : LogoutRequest) (session : ProviderSession) : Call :=
  match r.client, r.redirect with
  | some client, some redirect => .beginLogout session client redirect r.state p.registry
  | _, _ => .beginLocal session p.issuer

/-- A hint answers the challenge, if there is a return to make; else the user is asked. -/
def answerHint (r : LogoutRequest) (session : ProviderSession) (challenge : LogoutChallenge) :
    Handler LogoutAnswer :=
  match r.hint.filter fun _ => r.redirect.isSome with
  | none => pure (.form challenge)
  | some hint => do
      match ← store (.finishHint session challenge p.registry hint.toIdClaims)
          Reply.asHinted with
      | .ok (some outcome) => pure (.page (logoutResponse p outcome))
      | .ok none => pure (.form challenge)
      | .error _ => pure (.refused "Solicitud inválida")

def logoutRp (now : Nat) (headers : HeaderMap) (q : List (String × String)) :
    Handler LogoutAnswer :=
  match logoutRequest keys p now q with
  | none => pure (.refused "Solicitud inválida")
  | some r => do
      match ← sessionFrom p headers with
      | none => pure (.refused "Sesión inválida")
      | some session =>
          match ← store (r.begins p session) Reply.asChallenge with
          | .error _ => pure (.refused "Solicitud inválida")
          | .ok challenge => answerHint p r session challenge

def logoutGet (now : Nat) (raw : Option String) (headers : HeaderMap) : Handler LogoutAnswer :=
  match pairs C (raw.getD "") 4096 with
  | none => pure (.refused "Solicitud inválida")
  | some q => logoutRp keys p now headers q

/-- The form comes back. -/
def logoutConfirmed (headers : HeaderMap) (q : List (String × String)) : Handler LogoutAnswer :=
  match readConfirmation q with
  | none => pure (.refused "Solicitud inválida")
  | some (id, csrf) =>
      if !sameOrigin headers p.issuer then pure (.refused "Origen inválido")
      else do
        match ← sessionFrom p headers with
        | none => pure (.refused "Sesión inválida")
        | some session =>
            match ← store (.finish session ⟨id, csrf, ""⟩ p.registry) Reply.asFinished with
            | .ok outcome => pure (.page (logoutResponse p outcome))
            | .error _ => pure (.refused "Solicitud inválida")

/-- The parameters of a form that comes without a query. -/
def postedForm (raw : Option String) (headers : HeaderMap) (body : List UInt8) :
    Option (List (String × String)) :=
  if (raw.any fun raw => !raw.isEmpty) || !isForm headers then none
  else pairsBytes C body 4096

def logoutPost (now : Nat) (raw : Option String) (headers : HeaderMap) (body : List UInt8) :
    Handler LogoutAnswer :=
  match postedForm C raw headers body with
  | none => pure (.refused "Solicitud inválida")
  | some q =>
      if confirmation q then logoutConfirmed p headers q else logoutRp keys p now headers q

end Handlers

/-- A request of the endpoint. -/
inductive LogoutHttp where
  | get (raw : Option String) (headers : HeaderMap)
  | post (raw : Option String) (headers : HeaderMap) (body : List UInt8)

def LogoutHttp.headers : LogoutHttp → HeaderMap
  | .get _ headers | .post _ headers _ => headers

def logout (C : HttpCrates) {K : KeyCrates} (keys : SigningKeys K) (p : Provider) (now : Nat) :
    LogoutHttp → Handler LogoutAnswer
  | .get raw headers => logoutGet C keys p now raw headers
  | .post raw headers body => logoutPost C keys p now raw headers body

/-! ## 3. What the handlers do -/

section Meets

variable (C : HttpCrates) {K : KeyCrates} (keys : SigningKeys K) (p : Provider) (now : Nat)

/-- The request of a client, in a query or in a form. -/
def LogoutHttp.asks : LogoutHttp → Option LogoutRequest
  | .get raw _ => (pairs C (raw.getD "") 4096).bind (logoutRequest keys p now)
  | .post raw headers body =>
      ((postedForm C raw headers body).filter fun q => !confirmation q).bind
        (logoutRequest keys p now)

/-- The confirmation of a user, in a form. -/
def LogoutHttp.confirms : LogoutHttp → Option (Uuid × String)
  | .get .. => none
  | .post raw headers body =>
      ((postedForm C raw headers body).filter confirmation).bind readConfirmation

/-- The session is the one of the browser's cookie. -/
def SignedIn (headers : HeaderMap) (h : Record) (s : ProviderSession) : Prop :=
  ∃ raw n, cookie headers (sessionCookie p.secure) = some raw ∧
    .called n (.findProviderSession raw) ∈ h ∧ .replied n (some (.session (.ok s))) ∈ h

/-- The challenge was begun for a request and a session. -/
def Opened (r : LogoutRequest) (s : ProviderSession) (challenge : LogoutChallenge)
    (h : Record) : Prop :=
  ∃ n, .called n (r.begins p s) ∈ h ∧ .replied n (some (.challenge (.ok challenge))) ∈ h

/-- **The calls of a request**: for the session of the cookie, a challenge for what a client asks,
    its answer by the hint of the same request, or the answer by a form of our own origin. -/
inductive LogoutCall (req : LogoutHttp) (h : Record) : Call → Prop where
  | session {raw : String} (hcookie : cookie req.headers (sessionCookie p.secure) = some raw) :
      LogoutCall req h (.findProviderSession raw)
  | begins {r : LogoutRequest} {s : ProviderSession} (hr : req.asks C keys p now = some r)
      (hs : SignedIn p req.headers h s) : LogoutCall req h (r.begins p s)
  | hinted {r : LogoutRequest} {s : ProviderSession} {challenge : LogoutChallenge}
      {hint : IdTokenClaims} (hr : req.asks C keys p now = some r)
      (hs : SignedIn p req.headers h s) (hopened : Opened p r s challenge h)
      (hhint : r.hint = some hint) (hreturn : r.redirect.isSome = true) :
      LogoutCall req h (.finishHint s challenge p.registry hint.toIdClaims)
  | confirmed {id : Uuid} {csrf : String} {s : ProviderSession}
      (hr : req.confirms C = some (id, csrf)) (horigin : sameOrigin req.headers p.issuer = true)
      (hs : SignedIn p req.headers h s) :
      LogoutCall req h (.finish s ⟨id, csrf, ""⟩ p.registry)

/-! ## 4. What is answered -/

/-- The calls of a record answer no challenge. -/
def Unanswered (h : Record) : Prop := ∀ n call, .called n call ∈ h → call.answers = none

/-- A page that leaves the session: a local error, or the form of a challenge that was begun. -/
def Stays (h : Record) : LogoutAnswer → Prop
  | .page r => ∃ message, r = localError message
  | .form challenge => ∃ r s, Opened p r s challenge h

/-- **What is answered**: a redirect for an answer to a challenge that logged out; any other page
    when no challenge was answered, or the one answer did not log out. -/
inductive LogoutEnds (h : Record) : LogoutAnswer → Prop where
  | left {past : Record} {n : Nat} {call : Call} {reply : Reply} {outcome : LogoutOutcome}
      (hlast : h = past ++ [.called n call, .replied n (some reply)]) (hpast : Unanswered past)
      (hleaves : call.leaves reply = some outcome) :
      LogoutEnds h (.page (logoutResponse p outcome))
  | remains {past : Record} {n : Nat} {call : Call} {r : Option Reply} {answer : LogoutAnswer}
      (hlast : h = past ++ [.called n call, .replied n r]) (hpast : Unanswered past)
      (hleaves : ∀ reply ∈ r, call.leaves reply = none) (hanswer : Stays p h answer) :
      LogoutEnds h answer
  | unanswered {answer : LogoutAnswer} (hrecord : Unanswered h) (hanswer : Stays p h answer) :
      LogoutEnds h answer

end Meets

section Proofs

variable {C : HttpCrates} {K : KeyCrates} {keys : SigningKeys K} {p : Provider} {now : Nat}
  {req : LogoutHttp} {h : Record} {q : List (String × String)}
  {ok : (q : surroundings.Ask) → surroundings.Answer q → Prop}

theorem Unanswered.nil : Unanswered [] := fun _ _ hc => absurd hc List.not_mem_nil

/-- A call that answers no challenge, and what it came to. -/
theorem Unanswered.snoc (hh : Unanswered h) {call : Call} (hcall : call.answers = none) {n m : Nat}
    {r : Option Reply} : Unanswered (h ++ [.called n call, .replied m r]) := by
  intro k c hc
  rcases List.mem_append.mp hc with hc | hc
  · exact hh k c hc
  · rcases List.mem_cons.mp hc with hc | hc
    · obtain ⟨_, rfl⟩ := Sql.Happening.called.inj hc
      exact hcall
    · exact nomatch List.mem_singleton.mp hc

theorem LogoutRequest.begins_answers (r : LogoutRequest) (s : ProviderSession) :
    (r.begins p s).answers = none := by
  unfold LogoutRequest.begins
  split <;> rfl

/-- **A call of a store**, with all its replies. -/
theorem meets_store_iff {α : Type} {may : Record → surroundings.Call → Prop} {call : Call}
    {value : Reply → Option (Except BrowserError α)} {Q : Record → Except BrowserError α → Prop} :
    Meets (I := surroundings) ok may (store call value) h Q ↔ may h call ∧ ∀ n r,
      Q (h ++ [.called n call, .replied n r]) ((r.bind value).getD (.error .database)) := by
  unfold store
  rw [meets_map, meets_perform]

/-- A value is that of a reply. -/
theorem reply_of_value {α : Type} {value : Reply → Option (Except BrowserError α)}
    {r : Option Reply} {e : BrowserError} {x : α} (h : (r.bind value).getD (.error e) = .ok x) :
    ∃ reply, r = some reply ∧ value reply = some (.ok x) := by
  cases r with
  | none => cases h
  | some reply =>
      cases hvalue : value reply with
      | none =>
          rw [Option.bind_some, hvalue] at h
          cases h
      | some y =>
          rw [Option.bind_some, hvalue, Option.getD_some] at h
          exact ⟨reply, rfl, h ▸ hvalue⟩

theorem asSession_eq {r : Reply} {s : ProviderSession} (h : r.asSession = some (.ok s)) :
    r = .session (.ok s) := by
  cases r with
  | session r =>
      cases r with
      | ok s' =>
          cases h
          rfl
      | error e => cases h
  | _ => cases h

theorem mapError_value {ε ε' α : Type} {f : ε → ε'} {r : Except ε α} {x : α}
    (h : some (r.mapError f) = some (.ok x)) : r = .ok x :=
  mapError_ok.mp (Option.some.inj h)

theorem asChallenge_eq {r : Reply} {c : LogoutChallenge} (h : r.asChallenge = some (.ok c)) :
    r = .challenge (.ok c) := by
  cases r with
  | challenge r => rw [mapError_value h]
  | _ => cases h

/-- The session of the cookie, or none. -/
theorem meets_signedIn {may : Record → surroundings.Call → Prop} {headers : HeaderMap}
    {Q : Record → Option ProviderSession → Prop} (hh : Unanswered h)
    (hmay : ∀ raw, cookie headers (sessionCookie p.secure) = some raw →
      may h (.findProviderSession raw))
    (hnone : ∀ h', Unanswered h' → Q h' none)
    (hsome : ∀ h' s, Unanswered h' → SignedIn p headers h' s → Q h' (some s)) :
    Meets (I := surroundings) ok may (sessionFrom p headers) h Q := by
  unfold sessionFrom
  split
  · exact hnone h hh
  · rename_i raw hraw
    refine meets_map.mpr (meets_store_iff.mpr ⟨hmay raw hraw, fun n r => ?_⟩)
    have hlater : Unanswered (h ++ [.called n (.findProviderSession raw), .replied n r]) :=
      hh.snoc rfl
    cases hx : (r.bind Reply.asSession).getD (.error .database) with
    | error e => exact hnone _ hlater
    | ok s =>
        obtain ⟨reply, rfl, hreply⟩ := reply_of_value hx
        obtain rfl := asSession_eq hreply
        exact hsome _ s hlater ⟨raw, n, hraw, by simp, by simp⟩

theorem ends_refused {message : String} (hh : Unanswered h) :
    LogoutEnds p h (.refused message) := .unanswered hh ⟨message, rfl⟩

/-- A refused answer to a challenge. -/
theorem ends_answer {past : Record} {n : Nat} {call : Call} {r : Option Reply} {message : String}
    (hpast : Unanswered past) (hleaves : ∀ reply ∈ r, call.leaves reply = none) :
    LogoutEnds p (past ++ [.called n call, .replied n r]) (.refused message) :=
  .remains rfl hpast hleaves ⟨message, rfl⟩

/-- The values of an answer by a hint. -/
theorem asHinted_leaves {s : ProviderSession} {challenge : LogoutChallenge} {R : ClientRegistry}
    {hint : IdClaims} {reply : Reply} :
    (Call.finishHint s challenge R hint).leaves reply =
      (reply.asHinted.bind Except.toOption).join := by
  cases reply with
  | hinted r => cases r <;> rfl
  | _ => rfl

theorem asFinished_leaves {s : ProviderSession} {challenge : LogoutChallenge} {R : ClientRegistry}
    {reply : Reply} : (Call.finish s challenge R).leaves reply =
      reply.asFinished.bind Except.toOption := by
  cases reply with
  | finished r => cases r <;> rfl
  | _ => rfl

/-- What a call came to, when its value is an error. -/
theorem value_error {α : Type} {value : Reply → Option (Except BrowserError α)} {r : Option Reply}
    {e e' : BrowserError} (h : (r.bind value).getD (.error e) = .error e') :
    ∀ reply ∈ r, (value reply).bind Except.toOption = none := by
  rintro reply rfl
  rw [Option.bind_some] at h
  cases hvalue : value reply with
  | none => rfl
  | some x =>
      rw [hvalue, Option.getD_some] at h
      rw [h]
      rfl

/-- **A hint answers the challenge**, or nobody does. -/
theorem answerHint_meets {r : LogoutRequest} {s : ProviderSession} {challenge : LogoutChallenge}
    (hr : req.asks C keys p now = some r) (hh : Unanswered h) (hs : SignedIn p req.headers h s)
    (hopened : Opened p r s challenge h) :
    Meets (I := surroundings) ok (LogoutCall C keys p now req) (answerHint p r s challenge) h
      (LogoutEnds p) := by
  unfold answerHint
  split
  · exact .unanswered hh ⟨r, s, hopened⟩
  · rename_i hint hfilter
    obtain ⟨hhint, hreturn⟩ := Option.filter_eq_some_iff.mp hfilter
    refine meets_bind.mpr (meets_store_iff.mpr
      ⟨.hinted hr hs hopened hhint hreturn, fun n reply => ?_⟩)
    cases hx : (reply.bind Reply.asHinted).getD (.error .database) with
    | error e =>
        refine ends_answer hh fun r hr => ?_
        rw [asHinted_leaves, value_error hx r hr]
        rfl
    | ok x =>
        obtain ⟨r', rfl, hvalue⟩ := reply_of_value hx
        have hleaves : (Call.finishHint s challenge p.registry hint.toIdClaims).leaves r' = x := by
          rw [asHinted_leaves, hvalue]
          rfl
        cases x with
        | some outcome => exact .left rfl hh hleaves
        | none =>
            refine .remains rfl hh (fun reply hreply => ?_) ⟨r, s, ?_⟩
            · rw [← Option.some.inj hreply]
              exact hleaves
            · obtain ⟨m, hcalled, hreplied⟩ := hopened
              exact ⟨m, List.mem_append_left _ hcalled, List.mem_append_left _ hreplied⟩

/-- **A client's request** begins a challenge for the session of the cookie. -/
theorem logoutRp_meets (hq : ∀ r, logoutRequest keys p now q = some r →
      req.asks C keys p now = some r) (hh : Unanswered h) :
    Meets (I := surroundings) ok (LogoutCall C keys p now req)
      (logoutRp keys p now req.headers q) h (LogoutEnds p) := by
  unfold logoutRp
  cases hread : logoutRequest keys p now q with
  | none => exact ends_refused hh
  | some r =>
      have hr := hq r hread
      refine meets_bind.mpr (meets_signedIn hh (fun raw hraw => .session hraw)
        (fun h' hh' => ends_refused hh') fun h' s hh' hs => ?_)
      refine meets_bind.mpr (meets_store_iff.mpr ⟨.begins hr hs, fun n reply => ?_⟩)
      have hlater : Unanswered (h' ++ [.called n (r.begins p s), .replied n reply]) :=
        hh'.snoc (r.begins_answers s)
      cases hx : (reply.bind Reply.asChallenge).getD (.error .database) with
      | error e => exact ends_refused hlater
      | ok challenge =>
          obtain ⟨r', rfl, hvalue⟩ := reply_of_value hx
          obtain rfl := asChallenge_eq hvalue
          refine answerHint_meets hr hlater ?_ ⟨n, by simp, by simp⟩
          obtain ⟨raw, m, hcookie, hcalled, hreplied⟩ := hs
          exact ⟨raw, m, hcookie, List.mem_append_left _ hcalled,
            List.mem_append_left _ hreplied⟩

/-- **A confirmation** answers its challenge, for the session of the cookie. -/
theorem logoutConfirmed_meets (hq : readConfirmation q = req.confirms C) (hh : Unanswered h) :
    Meets (I := surroundings) ok (LogoutCall C keys p now req)
      (logoutConfirmed p req.headers q) h (LogoutEnds p) := by
  unfold logoutConfirmed
  cases hread : readConfirmation q with
  | none => exact ends_refused hh
  | some confirmed =>
      obtain ⟨id, csrf⟩ := confirmed
      dsimp only
      by_cases horigin : sameOrigin req.headers p.issuer = true
      · rw [horigin, Bool.not_true, if_neg Bool.false_ne_true]
        refine meets_bind.mpr (meets_signedIn hh (fun raw hraw => .session hraw)
          (fun h' hh' => ends_refused hh') fun h' s hh' hs => ?_)
        refine meets_bind.mpr (meets_store_iff.mpr
          ⟨.confirmed (hq ▸ hread) horigin hs, fun n reply => ?_⟩)
        cases hx : (reply.bind Reply.asFinished).getD (.error .database) with
        | error e =>
            refine ends_answer hh' fun r hr => ?_
            rw [asFinished_leaves, value_error hx r hr]
        | ok outcome =>
            obtain ⟨r', rfl, hvalue⟩ := reply_of_value hx
            refine .left rfl hh' ?_
            rw [asFinished_leaves, hvalue]
            rfl
      · rw [Bool.not_eq_true] at horigin
        rw [horigin, Bool.not_false, if_pos rfl]
        exact ends_refused hh

/-- **What the endpoint does**: it makes no other call, and it redirects exactly for an answer
    that logged out. -/
theorem logout_meets (req : LogoutHttp) :
    Meets (I := surroundings) ok (LogoutCall C keys p now req) (logout C keys p now req) []
      (LogoutEnds p) := by
  cases req with
  | get raw headers =>
      show Meets _ _ (logoutGet C keys p now raw headers) _ _
      unfold logoutGet
      cases hq : pairs C (raw.getD "") 4096 with
      | none => exact ends_refused .nil
      | some q =>
          have hasks : ∀ r, logoutRequest keys p now q = some r →
              (LogoutHttp.get raw headers).asks C keys p now = some r :=
            fun r hr => Option.bind_eq_some_iff.mpr ⟨q, hq, hr⟩
          exact logoutRp_meets hasks .nil
  | post raw headers body =>
      show Meets _ _ (logoutPost C keys p now raw headers body) _ _
      unfold logoutPost
      cases hq : postedForm C raw headers body with
      | none => exact ends_refused .nil
      | some q =>
          dsimp only
          by_cases hours : confirmation q = true
          · rw [if_pos hours]
            have hconfirms : readConfirmation q =
                (LogoutHttp.post raw headers body).confirms C := by
              simp only [LogoutHttp.confirms]
              rw [hq, Option.filter_some, if_pos hours]
              rfl
            exact logoutConfirmed_meets hconfirms .nil
          · rw [if_neg hours]
            have hasks : ∀ r, logoutRequest keys p now q = some r →
                (LogoutHttp.post raw headers body).asks C keys p now = some r := by
              intro r hr
              simp only [LogoutHttp.asks]
              rw [hq, Option.filter_some, if_pos (by simpa using hours)]
              exact hr
            exact logoutRp_meets hasks .nil

end Proofs

end Web

end Eri
