/-
  File:      Eri/Web.lean
  Subject:   The handlers of the browser flow (src/web.rs): authorize, google_start, callback,
             consent_get and consent_post.

  A handler is a process: it asks for what a client resolves to, for clock readings and for the
  answer of Google, and makes calls of the stores. A policy is resolved anew for each attempt;
  an attempt is repeated once when its metadata lease expired.

  * `Provider.resolveClient` -- what a client may resolve to;
  * `attempts` -- the two attempts all calls with a registry are made in;
  * `authorize`, `googleStart`, `callback`, `consentGet`, `consentPost`;
  * `handle` -- the handler of a request; `service`, `Online` -- any number of requests at once,
    over the stores.
-/
import Eri.Config
import Eri.Forms
import Eri.Store
import Eri.Sql.Server

namespace Eri

namespace Web

open Sql (Process)
open Sql.Process (fromExcept)

/-! ## 1. Providers -/

/-- The parts of `GoogleAdapter` that make the URL of its login page. -/
structure GoogleAdapter where
  clientId : String
  callback : String
  authorize : String

structure Provider where
  registry : ClientRegistry
  cimdPolicy : Option CimdPolicyConfig
  google : GoogleAdapter
  issuer : String
  secure : Bool

/-- `resolve_client`, with what `fetch_leased` returns and the reading of `project_cimd`. -/
def Provider.resolveClient (P : Platform) (p : Provider) (clientId : String)
    (fetched : Except CimdError LeasedClientMetadata) (now : Instant) : Option ClientRegistry :=
  if p.registry.containsClient clientId then some p.registry
  else
    match p.cimdPolicy, fetched with
    | some policy, .ok snapshot =>
        (p.registry.projectCimd P now snapshot policy.scopes policy.resources
          policy.allowRefresh).toOption
    | _, _ => none

/-- `valid_opaque`. -/
def validOpaque (value : String) : Bool :=
  !value.isEmpty && decide (value.utf8ByteSize ≤ 512) &&
    (utf8 value).all fun b => 33 ≤ b && b ≤ 126

/-- `google::valid_s256_challenge`. -/
def validS256Challenge (value : String) : Bool :=
  value.utf8ByteSize == 43 && (Base64Url.decode value.toList).any fun bytes =>
    bytes.length == 32 && Base64Url.encode bytes == value.toList

/-- `GoogleAdapter::authorization_url`. -/
def GoogleAdapter.authorizationUrl (C : HttpCrates) (g : GoogleAdapter)
    (state nonce challenge : String) (selectAccount : Bool) : Option String :=
  if !validOpaque state || !validOpaque nonce || !validS256Challenge challenge then none
  else
    C.appendPairs g.authorize <|
      [("client_id", g.clientId), ("redirect_uri", g.callback), ("response_type", "code"),
        ("scope", "openid profile email"), ("state", state), ("nonce", nonce),
        ("code_challenge", challenge), ("code_challenge_method", "S256"),
        ("access_type", "online")] ++
      (if selectAccount then [("prompt", "select_account")] else [])

/-! ## 2. What handlers ask for -/

/-- `resolve_client`, `Instant::now`, `Utc::now` and `GoogleAdapter::exchange_code`. -/
inductive Ask where
  | resolve (clientId : String)
  | instant
  | now
  | exchange (code verifier nonce : String)

def Ask.Answer : Ask → Type
  | .resolve _ => Option ClientRegistry
  | .instant => Instant
  | .now => Time
  | .exchange _ _ _ => Option VerifiedGoogleIdentity

abbrev surroundings : Sql.Interface := ⟨Ask, Ask.Answer, Call, Reply⟩

/-- A handler, or a part of one. -/
abbrev Handler (α : Type) : Type := Process surroundings α

abbrev Fallible (α : Type) : Type := ExceptT String (Process surroundings) α

/-- The clients of a provider resolve to its own registry or to a projection of it; clocks and
    Google answer anything. -/
def Provider.Answers (P : Platform) (p : Provider) : (q : Ask) → q.Answer → Prop
  | .resolve clientId, r => ∃ fetched now, r = p.resolveClient P clientId fetched now
  | .instant, _ | .now, _ | .exchange _ _ _, _ => True

def resolveClient (clientId : String) : Handler (Option ClientRegistry) :=
  Process.request (I := surroundings) (Ask.resolve clientId)

def instantNow : Handler Instant := Process.request (I := surroundings) Ask.instant

def utcNow : Handler Time := Process.request (I := surroundings) Ask.now

def exchangeCode (code verifier nonce : String) : Handler (Option VerifiedGoogleIdentity) :=
  Process.request (I := surroundings) (Ask.exchange code verifier nonce)

/-- A call of a store; a call that the database failed is an error. -/
def store {α : Type} (c : Call) (value : Reply → Option (Except BrowserError α)) :
    Handler (Except BrowserError α) :=
  (fun r => (r.bind value).getD (.error .database)) <$> Process.perform (I := surroundings) c

/-- The same, with the error a handler gives for it. -/
def storeOr {α : Type} (c : Call) (value : Reply → Option (Except BrowserError α))
    (error : String) : Fallible α :=
  ExceptT.mk ((fun r => r.mapError fun _ => error) <$> store c value)

end Web

/-! The values of replies. -/

def Reply.asClient : Reply → Option (Except BrowserError String)
  | .client r => some r
  | _ => none

def Reply.asStart : Reply → Option (Except BrowserError BrowserStart)
  | .begun r => some r
  | _ => none

def Reply.asStarted : Reply → Option (Except BrowserError (String × String))
  | .started r => some r
  | _ => none

def Reply.asDenial : Reply → Option (Except BrowserError DenialOutcome)
  | .denied r => some r
  | _ => none

def Reply.asHandle : Reply → Option (Except BrowserError ConsentHandle)
  | .handle r => some r
  | _ => none

def Reply.asAuthTime : Reply → Option (Except BrowserError (Option Time))
  | .authTime r => some r
  | _ => none

def Reply.asClaim : Reply → Option (Except BrowserError (String × String × String))
  | .claimed r => some r
  | _ => none

def Reply.asFailure : Reply → Option (Except BrowserError Unit)
  | .failed r => some r
  | _ => none

def Reply.asCompletion : Reply → Option (Except BrowserError LoginCompletion)
  | .completed r => some r
  | _ => none

def Reply.asApproval : Reply → Option (Except BrowserError ConsentOutcome)
  | .approved r => some r
  | _ => none

def Reply.asPreApproval : Reply → Option (Except BrowserError (Option ConsentOutcome))
  | .preApproved r => some r
  | _ => none

def Reply.asView : Reply → Option (Except BrowserError ConsentView)
  | .view r => some r
  | _ => none

/-- `find_provider_session`, for a caller that takes any error for no session. -/
def Reply.asSession : Reply → Option (Except BrowserError ProviderSession)
  | .session (.ok s) => some (.ok s)
  | .session (.error _) => some (.error .invalid)
  | _ => none

namespace Web

open Sql (Process)
open Sql.Process (fromExcept)

/-! ## 3. Parts of handlers -/

section Handlers

variable (C : HttpCrates) (p : Provider)

/-- `session_from`. -/
def sessionFrom (headers : HeaderMap) : Handler (Option ProviderSession) :=
  match cookie headers (sessionCookie p.secure) with
  | none => pure none
  | some raw => Except.toOption <$> store (.findProviderSession raw) Reply.asSession

/-- A call under what a client resolves to, and once more when the lease expired. The error is
    none when the client did not resolve. -/
def attempts {α : Type} (client : String)
    (call : ClientRegistry → Handler (Except BrowserError α)) :
    Handler (Except (Option BrowserError) α) := do
  match ← resolveClient client with
  | none => pure (.error none)
  | some registry =>
      match ← call registry with
      | .ok value => pure (.ok value)
      | .error .metadataExpired =>
          match ← resolveClient client with
          | none => pure (.error none)
          | some registry => Except.mapError some <$> call registry
      | .error e => pure (.error (some e))

/-- The client of a transaction, and then a call under its policy. -/
def attemptsFor {α : Type} (client : Handler (Except BrowserError String))
    (call : ClientRegistry → Handler (Except BrowserError α)) :
    Handler (Except (Option BrowserError) α) := do
  match ← client with
  | .ok client => attempts client call
  | .error _ => pure (.error none)

def clientOf (id : Uuid) : Handler (Except BrowserError String) :=
  store (.transactionClientId id) Reply.asClient

def consentPage (session : ProviderSession) (handle : ConsentHandle) : Handler Response := do
  match ← attemptsFor (clientOf handle.transactionId) fun registry =>
      store (.consentView session handle registry) Reply.asView with
  | .ok view => pure ⟨.consent view, []⟩
  | .error _ => pure (localError "La solicitud expiró")

/-! ## 4. `authorize` -/

/-- The parameters of an authorization request. -/
structure AuthorizeParams where
  client : String
  redirect : String
  responseType : String
  method : String
  challenge : String
  scopes : List String
  resource : Option String
  nonce : Option String
  downstream : Option String
  prompt : Option String
  maxAge : Option Nat

/-- The `max_age` of a request. -/
def readMaxAge (value : Option String) : Except String (Option Nat) :=
  match value with
  | none => .ok none
  | some v =>
      match (Cimd.parseU64 v.toList).filter (· ≤ 31536000) with
      | some n => .ok (some n)
      | none => .error "invalid_request"

def readAuthorize (q : List (String × String)) : Except String AuthorizeParams := do
  ["request_uri", "request", "claims", "response_mode"].forM fun unsupported => do
    if (← optional q unsupported).isSome then throw "request_not_supported"
  let client ← required q "client_id"
  let redirect ← required q "redirect_uri"
  let responseType ← required q "response_type"
  let method ← required q "code_challenge_method"
  let challenge ← required q "code_challenge"
  let scope ← required q "scope"
  let scopes := ((scope.toList.splitOn ' ').filter fun v => !v.isEmpty).map String.ofList
  let resource ← optional q "resource"
  let nonce ← optional q "nonce"
  let downstream ← optional q "state"
  let prompt ← optional q "prompt"
  if prompt.any fun v => v ∉ ["none", "consent", "login", "select_account"] then
    throw "invalid_request"
  let maxAge ← readMaxAge (← optional q "max_age")
  pure { client, redirect, responseType, method, challenge, scopes, resource, nonce, downstream,
         prompt, maxAge }

def AuthorizeParams.request (a : AuthorizeParams) : AuthorizationRequest :=
  { clientId := a.client, redirectUri := a.redirect, responseType := a.responseType
    codeChallengeMethod := a.method, codeChallenge := a.challenge, scopes := a.scopes
    resource := a.resource }

/-- Whether a code may be issued without a page, as it is recorded. -/
def AuthorizeParams.allows (a : AuthorizeParams) (registry : ClientRegistry)
    (pending : PendingAuthorizationGrant) : Bool :=
  a.prompt != some "consent" && registry.preAuthorizes pending

/-- The session is recent enough for `max_age`. -/
def checkMaxAge (a : AuthorizeParams) (session : ProviderSession) : Fallible Unit :=
  match a.maxAge with
  | none => pure ()
  | some maxAge => do
      match ← storeOr (.sessionUpstreamAuthTime session) Reply.asAuthTime "login_required" with
      | none => throw "login_required"
      | some authTime =>
          let now ← utcNow
          if (now - authTime).tdiv second > maxAge then throw "login_required" else pure ()

/-- The code of a request that needs no page, if its transaction still allows it. -/
def approveAtOnce (registry : ClientRegistry) (a : AuthorizeParams) (allow : Bool)
    (session : ProviderSession) (handle : ConsentHandle) : Fallible (Option Response) :=
  if allow then do
    match ← storeOr (.approvePreAuthorized session handle registry) Reply.asPreApproval
        "server_error" with
    | some outcome =>
        pure (some (codeRedirect outcome.redirectUri outcome.downstreamState p.issuer
          outcome.code))
    | none => if a.prompt = some "none" then throw "consent_required" else pure none
  else pure none

/-- `authorize_valid` for a browser with a session. -/
def authorizeSession (registry : ClientRegistry) (a : AuthorizeParams)
    (pending : PendingAuthorizationGrant) (allow : Bool) (session : ProviderSession) :
    Fallible Response := do
  checkMaxAge a session
  if a.prompt = some "none" ∧ !allow then throw "consent_required"
  else
    let handle ← storeOr (.beginAuthenticated session pending a.downstream a.nonce allow)
      Reply.asHandle "server_error"
    match ← approveAtOnce p registry a allow session handle with
    | some response => pure response
    | none => consentPage session handle

/-- A transaction that may skip the page is started at once. -/
def startAtOnce (allow : Bool) (start : BrowserStart) : Fallible Unit :=
  if allow then do
    let _ ← storeOr (.startGoogle start.transactionId start.upstreamState start.browserBinding)
      Reply.asStarted "server_error"
    pure ()
  else pure ()

/-- The page that sends the browser to Google, or offers to. -/
def googlePage (registry : ClientRegistry) (a : AuthorizeParams)
    (pending : PendingAuthorizationGrant) (allow : Bool) (start : BrowserStart) :
    Except String Response := do
  let challenge ← (s256Challenge C.toPlatform start.upstreamVerifier).mapError fun _ =>
    "server_error"
  match p.google.authorizationUrl C start.upstreamState start.upstreamNonce challenge true,
      registry.displayName a.client with
  | some upstream, some clientName =>
      let page := if allow then .upstream upstream
        else .login clientName pending.scopes pending.resource start.transactionId
          start.upstreamState upstream pending.redirectUri
      pure (Response.insertCookie ⟨page, []⟩
        ⟨txCookie start.transactionId p.secure, start.browserBinding, some 600, p.secure⟩)
  | _, _ => throw "server_error"

/-- `authorize_valid` for a browser without one. -/
def authorizeGoogle (headers : HeaderMap) (registry : ClientRegistry) (a : AuthorizeParams)
    (pending : PendingAuthorizationGrant) (allow : Bool) : Fallible Response := do
  if a.prompt = some "none" ∨ a.maxAge.isSome then throw "login_required"
  else if transactionCookieCount headers p.secure ≥ 4 then throw "temporarily_unavailable"
  else
    let start ← storeOr (.beginGoogle pending a.downstream a.nonce allow) Reply.asStart
      "server_error"
    startAtOnce allow start
    fromExcept (googlePage C p registry a pending allow start)

def authorizeValid (q : List (String × String)) (headers : HeaderMap)
    (registry : ClientRegistry) : Fallible Response := do
  let a ← fromExcept (readAuthorize q)
  let now ← instantNow
  let pending ← fromExcept <|
    (registry.validatePending C.toPlatform now a.request).mapError fun _ => "invalid_request"
  let allow := a.allows registry pending
  let session ← sessionFrom p headers
  if a.prompt = some "login" then throw "login_required"
  else
    match session.filter fun _ => a.prompt != some "select_account" with
    | some session => authorizeSession p registry a pending allow session
    | none => authorizeGoogle C p headers registry a pending allow

/-- `registry.ensure_fresh().is_ok()`. -/
def isFresh (registry : ClientRegistry) : Handler Bool := do
  let now ← instantNow
  pure (registry.ensureFresh now).isOk

/-- One attempt; none asks for another one. -/
def authorizeAttempt (q : List (String × String)) (headers : HeaderMap)
    (client redirect : String) (first : Bool) : Handler (Option Response) := do
  match ← resolveClient client with
  | none => pure (some (localError "Cliente o retorno inválido"))
  | some registry =>
      if !registry.trustedRedirect C.toPlatform client redirect then
        pure (some (localError "Cliente o retorno inválido"))
      else
        match optional q "state" with
        | .error _ => pure (some (localError "Solicitud inválida"))
        | .ok state =>
            match ← (authorizeValid C p q headers registry).run with
            | .ok response => pure (some response)
            | .error code =>
                if !(← isFresh registry) && first then pure none
                else if ← isFresh registry then
                  pure (some (oauthRedirect redirect state p.issuer code))
                else pure (some (localError "La solicitud expiró"))

def authorize (raw : String) (headers : HeaderMap) : Handler Response :=
  match pairs C raw 8192 with
  | none => pure (localError "Solicitud inválida")
  | some q =>
      match one q "client_id", one q "redirect_uri" with
      | some client, some redirect => do
          match ← authorizeAttempt C p q headers client redirect true with
          | some response => pure response
          | none =>
              let second ← authorizeAttempt C p q headers client redirect false
              pure (second.getD (localError "La solicitud expiró"))
      | _, _ => pure (localError "Solicitud inválida")

/-! ## 5. `google_start` -/

/-- The transaction, the state and the action of a form. -/
def readStart (q : List (String × String)) : Option (Uuid × String × String) := do
  let id ← parseUuid (← (required q "transaction_id").toOption).toList
  let state ← (required q "state").toOption
  let action ← (required q "action").toOption
  if ["continue", "cancel"].contains action then some (id, state, action) else none

def cancel (id : Uuid) (state binding : String) : Handler Response := do
  match ← attemptsFor (clientOf id) fun registry =>
      store (.cancelGoogle id state binding (some registry)) Reply.asDenial with
  | .error _ => pure (localError "La solicitud expiró")
  | .ok outcome =>
      pure (clearTransactionCookie
        (oauthRedirect outcome.redirectUri outcome.downstreamState p.issuer "access_denied")
        (some (txCookie id p.secure)) p.secure)

def googleStart (headers : HeaderMap) (body : List UInt8) : Handler Response :=
  if !sameOrigin headers p.issuer then pure (localError "Origen inválido")
  else
    match (pairsBytes C body 1024).bind readStart with
    | none => pure (localError "Solicitud inválida")
    | some (id, state, action) =>
        match cookie headers (txCookie id p.secure) with
        | none => pure (localError "La solicitud expiró")
        | some binding =>
            if action = "cancel" then cancel p id state binding
            else do
              match ← store (.startGoogle id state binding) Reply.asStarted with
              | .error _ => pure (localError "La solicitud expiró")
              | .ok (nonce, verifier) =>
                  match s256Challenge C.toPlatform verifier with
                  | .error _ => pure (localError "Solicitud inválida")
                  | .ok challenge =>
                      match p.google.authorizationUrl C state nonce challenge true with
                      | none => pure (localError "No se pudo iniciar el acceso")
                      | some url => pure ⟨.upstream url, []⟩

/-! ## 6. `callback` -/

/-- The state of a callback, and the code or the error of Google. -/
def readCallback (q : List (String × String)) : Option (String × (String ⊕ String)) := do
  let state ← one q "state"
  let code ← (optional q "code").toOption
  let error ← (optional q "error").toOption
  match code, error with
  | some code, none => some (state, .inl code)
  | none, some error => some (state, .inr error)
  | _, _ => none

/-- The first transaction cookie that claims the callback. -/
def claimFirst (state : String) : List (String × String) →
    Handler (Option (String × String × String × String))
  | [] => pure none
  | (name, binding) :: rest => do
      match ← store (.claimCallback state binding) Reply.asClaim with
      | .ok claimed => pure (some (name, claimed))
      | .error _ => claimFirst state rest

/-- Google reports an error. -/
def callbackDenied (claim error : String) : Handler Response :=
  if error ≠ "access_denied" then do
    let _ ← store (.failCallback claim) Reply.asFailure
    pure (localError "Respuesta de acceso inválida")
  else do
    match ← attemptsFor (store (.callbackClientId claim) Reply.asClient) fun registry =>
        store (.denyCallback claim registry) Reply.asDenial with
    | .error _ => pure (localError "Respuesta de acceso inválida")
    | .ok outcome =>
        pure (oauthRedirect outcome.redirectUri outcome.downstreamState p.issuer "access_denied")

/-- The page after a login: the code when none is needed, or the consent page. -/
def callbackConsent (completion : LoginCompletion) : Handler Response := do
  let approved ← attemptsFor (clientOf completion.consent.transactionId) fun registry =>
    store (.approvePreAuthorized completion.session completion.consent registry)
      Reply.asPreApproval
  match approved with
  | .error (some _) => pure (localError "La solicitud expiró")
  | _ =>
      let page ← match approved with
        | .ok (some outcome) =>
            pure (codeRedirect outcome.redirectUri outcome.downstreamState p.issuer outcome.code)
        | _ => consentPage completion.session completion.consent
      pure (page.insertCookie ⟨sessionCookie p.secure, completion.session.raw, none, p.secure⟩)

/-- Google reports a login. -/
def callbackLogin (claim code verifier nonce : String) : Handler Response := do
  match ← exchangeCode code verifier nonce with
  | none =>
      let _ ← store (.failCallback claim) Reply.asFailure
      pure (localError "No se pudo verificar el acceso")
  | some identity =>
      match ← attemptsFor (store (.callbackClientId claim) Reply.asClient) fun registry =>
          store (.completeCallback claim identity ⟨30 * 24 * 3600, 0⟩ (some registry))
            Reply.asCompletion with
      | .error _ => pure (localError "La solicitud expiró")
      | .ok completion => callbackConsent p completion

def callback (raw : Option String) (headers : HeaderMap) : Handler Response :=
  match (pairs C (raw.getD "") 4096).bind readCallback with
  | none => pure (localError "Respuesta de acceso inválida")
  | some (state, answer) => do
      match ← claimFirst state (transactionCookies headers p.secure) with
      | none => pure (localError "Respuesta de acceso inválida")
      | some (name, claim, verifier, nonce) =>
          let response ← match answer with
            | .inr error => callbackDenied p claim error
            | .inl code => callbackLogin p claim code verifier nonce
          pure (clearTransactionCookie response (some name) p.secure)

/-! ## 7. Consent -/

def consentGet (raw : Option String) (headers : HeaderMap) : Handler Response :=
  match pairs C (raw.getD "") 2048 with
  | none => pure (localError "Solicitud inválida")
  | some q =>
      match (one q "transaction_id").bind fun v => parseUuid v.toList, one q "csrf" with
      | some id, some csrf => do
          match ← sessionFrom p headers with
          | none => pure (localError "Sesión inválida")
          | some session => consentPage session ⟨id, csrf⟩
      | _, _ => pure (localError "Solicitud inválida")

/-- The transaction, the CSRF secret and the action of a form. -/
def readConsent (q : List (String × String)) : Option (Uuid × String × String) := do
  let id ← one q "transaction_id"
  let csrf ← one q "csrf"
  let action ← one q "action"
  some (← parseUuid id.toList, csrf, action)

/-- The decision of a form. -/
def decide (session : ProviderSession) (handle : ConsentHandle) (action client : String) :
    Handler Response :=
  if action = "approve" then do
    match ← attempts client fun registry =>
        store (.approve session handle registry) Reply.asApproval with
    | .error _ => pure (localError "La solicitud expiró")
    | .ok v => pure (consentReturn C v.redirectUri
        [("code", some v.code), ("state", v.downstreamState), ("iss", some p.issuer)])
  else if action = "deny" then do
    match ← attempts client fun registry =>
        store (.deny session handle (some registry)) Reply.asDenial with
    | .error _ => pure (localError "La solicitud expiró")
    | .ok v => pure (consentReturn C v.redirectUri
        [("error", some "access_denied"), ("state", v.downstreamState), ("iss", some p.issuer)])
  else do
    match ← resolveClient client with
    | none => pure (localError "La solicitud expiró")
    | some _ => pure (localError "Solicitud inválida")

def consentPost (headers : HeaderMap) (body : List UInt8) : Handler Response :=
  match (pairsBytes C body 4096).bind readConsent with
  | none => pure (localError "Solicitud inválida")
  | some (id, csrf, action) =>
      if !sameOrigin headers p.issuer then pure (localError "Origen inválido")
      else do
        match ← sessionFrom p headers with
        | none => pure (localError "Sesión inválida")
        | some session =>
            match ← clientOf id with
            | .error _ => pure (localError "La solicitud expiró")
            | .ok client => decide C p session ⟨id, csrf⟩ action client

end Handlers

/-! ## 8. Requests -/

/-- The requests of the browser flow. -/
inductive HttpRequest where
  | authorizeGet (raw : Option String) (headers : HeaderMap)
  | authorizePost (headers : HeaderMap) (body : List UInt8)
  | googleStart (headers : HeaderMap) (body : List UInt8)
  | callback (raw : Option String) (headers : HeaderMap)
  | consentGet (raw : Option String) (headers : HeaderMap)
  | consentPost (headers : HeaderMap) (body : List UInt8)

/-- The parameters and headers of an authorization request. -/
def HttpRequest.authorize : HttpRequest → Option (String × HeaderMap)
  | .authorizeGet raw headers => some (raw.getD "", headers)
  | .authorizePost headers body => some ((fromUtf8 body).getD "", headers)
  | _ => none

def handle (C : HttpCrates) (p : Provider) : HttpRequest → Handler Response
  | .authorizeGet raw headers => authorize C p (raw.getD "") headers
  | .authorizePost headers body => authorize C p ((fromUtf8 body).getD "") headers
  | .googleStart headers body => googleStart C p headers body
  | .callback raw headers => callback C p raw headers
  | .consentGet raw headers => consentGet C p raw headers
  | .consentPost headers body => consentPost C p headers body

/-- The calls of the other handlers: token, userinfo, revoke and logout. -/
def elsewhere : Call → Bool
  | .findProviderSession _ | .exchangeCodeRequest .. | .rotateRefreshRequest ..
  | .revokeRefresh .. | .userProfile _ | .beginLogout .. | .beginLocal .. | .finish ..
  | .finishHint .. => true
  | _ => false

/-- What `random_secret` returns: symbols of base64url, 43 of them. -/
def IsSecret (s : String) : Prop :=
  ∃ bytes : Vector UInt8 32, s.toList = Base64Url.encode bytes.toList

/-! ## 9. The server -/

/-- **The browser flow over the stores.** A request comes with the provider that serves it. -/
def service (C : HttpCrates) :
    Sql.Service schema surroundings Request (Provider × HttpRequest) Response where
  prog := program C.toPlatform
  contract := contract C.toPlatform
  asks r := r.call
  possible r := ∀ k, IsSecret (r.tape.secret k)
  body task := handle C task.1 task.2
  answers task := task.1.Answers C.toPlatform
  outside r := elsewhere r.call = true

/-- A server: its stores and the requests it was sent. -/
abbrev Server : Type 1 := Sql.Server schema surroundings Request (Provider × HttpRequest) Response

abbrev Worker : Type := Sql.Worker surroundings (Provider × HttpRequest) Response

abbrev Record : Type := Sql.Record surroundings

/-- The runs of any number of requests from the migrated, empty database. -/
abbrev Online (C : HttpCrates) (W : Server) : Prop := (service C).Reachable Sql.Db.empty W

theorem Online.reachable {C : HttpCrates} {W : Server} (h : Online C W) :
    Eri.Reachable C.toPlatform W.store := h.store

/-! ## 10. A server by hand -/

namespace Sample

/-- The `n`th secret of a run. -/
def secret (n : Nat) : String :=
  String.ofList (Base64Url.encode (List.replicate 32 (UInt8.ofNat n)))

/-- The SHA-256 of the secrets, one after the other. -/
def hashes : List Nat :=
  [0x0f007385b6f9d4b7eeb2748605afe1a984a0a3bfa3f014d09e2a784ce9e5cd1a,
   0x56d5fa7333f6d747db42c239407e5da4c32f4c79f35d092b134fd35a402d9c5c,
   0x6c1d63bbdab437c54368cbbd8886a886a79ad977297e265eebf1f5f5f01533b9,
   0x83bee072fbd3423f7481fc163821636ad8cfb73faef0dd0581f3979ea0c731b9,
   0x4f6a3bb5a6c72d17856be15f62e747ef88df8139f0c38411c8501164c1c1bdd8,
   0x894e352d1d8cc10c303df8fd45a59ee97b30841bdbf60b47fa317c7fa4c95859,
   0x4a872257959354dd4a92153e63a96c473254e71e9363f791b5097ff5ccab0f1f,
   0xdc4bf80c77473d130fa0de86ba4018fe98bb214005e6a5891d12ba91446f9e81,
   0xce9ec58122164c824a43e0452ffbba3da694694b44563b5c548942dbb8ab8e14,
   0x83cd213e468a2fbadb529623d69bd3683afb8f13a1f0abc3167d346bde303719,
   0x5ea905ad8efa187f9340922120eda0b546256d6c91b94547fe50ab4dee120755,
   0xf1fd1cb08dcb526cb44ec83e392afc010fce70067ed80f6b3c65bce927f5eba6,
   0xb0bc9af7f323ccf883996da7e3a0c52377b51337ed048f807d873f6e9cf46b27,
   0x60234b1f4b2581876fb01dcf719b37bef980fb232034eafd9a80729164c57f35,
   0xad7552dbbddd362643c31359bed4235ae2eba2447c2fdf4f810e7ecc16bbe04b,
   0x445770f0b336e9247076a80e008ef717f5d8a41b499403b34bb2596cf5ed517c,
   0xf3f55171b54a76bb99a464713d719c4182dd81ede74344efb1f87bf551bf0c43,
   0xb59e65c402a629e6c5b28355c7628a1002262b55b43a52f941c02740e3bdfafc,
   0x5266c0d7bdd5a0c72029e336674c09399d5ea60e3a8bedc08bc707901bd67781,
   0x4dc4b93d64b2cfd665935e60343f7e9d951286a29918963158c504c98b013c00,
   0x82f3b5659a494be6f3cbb0bcf5a8a3bd7db0d9f2dce0f97097208869a03d4623,
   0x9abc7bc414df9898a01141e3fc85dc25b35fd2dfc7c14c02132d2cc27a850cdf,
   0x6bce9d60fd173300443fd064c697b5471eba74ae14abedba7cfcd5d696a763b2,
   0x16acaaa7f1a9fde4bf4774bc4f18e9b263e68326896b20dfe40e109bc6420ccb,
   0xe0db2cd7bf992ee9de903ad3cd03e40d916e297eba203548253eb53b9bc0eb1d,
   0xb8ec1f230f4ee34782b3463028609fb28dbf2f37c4f40678312c8850e73c4125,
   0x209508ce9e31e47e7981f5144a50b4da36176bac5287e503c61bd341abc15f68,
   0x22c5645b38c99b2b47906c5c84032b1a884310e950aa48de2a868c997e3ff901]

/-- The number of a secret. -/
def secretIndex (input : List UInt8) : Option Nat := do
  let bytes ← Base64Url.decode (input.map fun b => Char.ofNat b.toNat)
  (bytes.head?).map UInt8.toNat

/-- The crates, on the secrets and the URLs of a run. -/
def serverCrates : HttpCrates := formCrates
  { Eri.Sample.platform with
    digest := fun input =>
      let n := ((secretIndex input).bind fun n => hashes[n]?).getD 0
      Vector.ofFn fun i : Fin 32 => UInt8.ofNat (n >>> (8 * (31 - i.val)))
    parse := fun raw =>
      if raw = "https://accounts.example/auth" then
        some { scheme := "https", username := "", password := none
               host := some (.domain "accounts.example"), path := "/auth", query := none
               fragment := none, cannotBeABase := false }
      else Eri.Sample.platform.parse raw }

/-- The provider of a development machine. -/
def localProvider : Provider :=
  ⟨Eri.Sample.registry, none,
    ⟨"google", "http://localhost/callback", "https://accounts.example/auth"⟩, "http://localhost",
    false⟩

/-- The `n`th call of a run: it happens `n` seconds in, with ids and secrets of its own. -/
def nthCall (n : Nat) (c : Call) : Request where
  call := c
  tape :=
    { now := fun _ => n * second
      rowNow := fun _ => n * second
      instant := fun _ => n
      uuid := fun i => 2 * n + i
      secret := fun j => secret (4 * n + j)
      scan := id
      scan_perm := List.Perm.refl }

/-- Static clients resolve, and Google vouches for everyone. -/
def answerOf (p : Provider) : (q : Ask) → q.Answer
  | .resolve clientId => p.resolveClient serverCrates.toPlatform clientId (.error .fetchFailed) 0
  | .instant => (0 : Int)
  | .now => (0 : Int)
  | .exchange _ _ _ => some Eri.Sample.identity

/-- The server after some requests, one after the other. -/
def served (requests : List (Provider × HttpRequest)) : Server :=
  (service serverCrates).serial nthCall Sql.Db.empty (requests.map fun r => (r, answerOf r.1))

theorem isSecret_secret (n : Nat) : IsSecret (secret n) :=
  ⟨⟨(List.replicate 32 (UInt8.ofNat n)).toArray, by simp⟩, String.toList_ofList⟩

theorem answers_answerOf (r : Provider × HttpRequest) (q : surroundings.Ask) :
    (service serverCrates).answers r q (answerOf r.1 q) := by
  cases q with
  | resolve clientId => exact ⟨_, _, rfl⟩
  | _ => exact trivial

/-- The draws of the calls are apart, as long as the secrets suffice. -/
theorem served_pairwise {requests : List (Provider × HttpRequest)}
    (h : (served requests).store.calls.length ≤ 7) :
    (served requests).store.calls.Pairwise (service serverCrates).contract.compat := by
  have hhashes : ((List.range 28).map fun n =>
      secretHash serverCrates.toPlatform (secret n)).Nodup := by decide +kernel
  refine Sql.Service.serial_pairwise fun n m c c' hlt hm => ?_
  have hm : m < 7 := Nat.lt_of_lt_of_le hm h
  refine apart_of_draws _ (fun i j => ?_) fun i j e => ?_
  · have : 2 * n + (i : Nat) < 2 * m + (j : Nat) := by omega
    exact Nat.ne_of_lt this
  · have hne : 4 * n + (i : Nat) ≠ 4 * m + (j : Nat) := by omega
    exact hne (List.inj_on_of_nodup_map hhashes (List.mem_range.mpr (by omega))
      (List.mem_range.mpr (by omega)) e)

theorem served_runs {requests : List (Provider × HttpRequest)}
    (h : (served requests).store.calls.length ≤ 7) :
    Online serverCrates (served requests) ∧ (served requests).store.Idle := by
  refine Sql.Service.reachable_serial (fun n c => ⟨rfl, fun k => isSecret_secret _⟩) _
    (fun task htask q => ?_) (served_pairwise h)
  obtain ⟨r, _, rfl⟩ := List.mem_map.mp htask
  exact answers_answerOf r q

/-- **Requests one after the other are a run**, as long as the secrets suffice. -/
theorem online_served {requests : List (Provider × HttpRequest)}
    (h : (served requests).store.calls.length ≤ 7) : Online serverCrates (served requests) :=
  (served_runs h).1

theorem served_snoc (requests : List (Provider × HttpRequest)) (r : Provider × HttpRequest) :
    served (requests ++ [r]) =
      (service serverCrates).serve nthCall (served requests) (r, answerOf r.1) := by
  unfold served
  rw [List.map_append]
  exact Sql.Service.serial_snoc _ _

theorem served_calls_le (requests : List (Provider × HttpRequest)) (r : Provider × HttpRequest) :
    (served requests).store.calls.length ≤ (served (requests ++ [r])).store.calls.length := by
  rw [served_snoc]
  exact (Sql.Service.play_calls _ _ _).length_le

/-- One more request, from its arrival to its answer. -/
theorem steps_served {requests : List (Provider × HttpRequest)} {r : Provider × HttpRequest}
    (h : (served (requests ++ [r])).store.calls.length ≤ 7) :
    (service serverCrates).Steps ⟨(served requests).store, (served requests).workers ++
      [⟨r, [], .ready (handle serverCrates r.1 r.2)⟩]⟩ (served (requests ++ [r])) := by
  have hbefore := (served_calls_le requests r).trans h
  have hcompat := served_pairwise h
  rw [served_snoc] at hcompat ⊢
  exact (Sql.Service.steps_serve (fun n c => ⟨rfl, fun k => isSecret_secret _⟩)
    (answers_answerOf r) (served_runs hbefore).2 hcompat).1

theorem served_tasks (requests : List (Provider × HttpRequest)) :
    (served requests).workers.map Sql.Worker.task = requests := by
  refine (Sql.Service.serial_tasks (V := service serverCrates) _).trans ?_
  rw [List.map_map]
  exact List.map_id _

/-- The worker of a request, at its end. -/
theorem served_at {requests : List (Provider × HttpRequest)} {i : Nat} {r : Response}
    (h : ((served requests).workers[i]?).bind Sql.Worker.result = some r) :
    ∃ task record, requests[i]? = some task ∧
      (served requests).At i task record (.ready (.done r)) := by
  obtain ⟨w, hw, hat⟩ := Sql.Server.at_of_result h
  have htask : ((served requests).workers.map Sql.Worker.task)[i]? = some w.task := by
    rw [List.getElem?_map, hw]
    rfl
  rw [served_tasks] at htask
  exact ⟨w.task, w.record, htask, hat⟩

def authorizeQuery : String :=
  "client_id=app&redirect_uri=https://app.example/callback&response_type=code" ++
    "&code_challenge_method=S256&code_challenge=E9Melhoa2OwvFrEMTJguCHaoeK1t8URWbuGJSstw-cM" ++
    "&scope=openid&resource=https://api.example&state=a%20b"

/-- A browser starts a transaction. -/
def start : List (Provider × HttpRequest) :=
  [(localProvider, .authorizeGet (some authorizeQuery) [])]

/-- It comes back from Google, and its client gets a code. -/
def signIn : List (Provider × HttpRequest) :=
  start ++ [(localProvider, .callback (some ("code=google&state=" ++ secret 0))
    [("cookie", utf8 (txCookie 0 false ++ "=" ++ secret 1))])]

end Sample

end Web

end Eri
