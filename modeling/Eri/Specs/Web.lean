/-
  File:      Eri/Specs/Web.lean
  Subject:   What each handler of the browser flow asks the stores for, and what it answers,
             whatever it is told.

  * `MayCall` -- the calls a handler may make after its record so far;
  * `Sends`, `CookieOf`, `Ends` -- where a response sends the browser, and the cookies it sets;
  * `meets_attempts`, `meets_store` -- one rule for each part of a handler;
  * **`handle_meets`** -- every handler keeps to them.
-/
import Eri.Web
import Eri.Bindings

namespace Eri

/-- What an outcome sends to a client: the redirect URI, the code or the error, and the state. -/
def Reply.returns : Reply → Option (String × (String × String) × Option String)
  | .approved (.ok o) => some (o.redirectUri, ("code", o.code), o.downstreamState)
  | .preApproved (.ok (some o)) => some (o.redirectUri, ("code", o.code), o.downstreamState)
  | .denied (.ok o) => some (o.redirectUri, ("error", "access_denied"), o.downstreamState)
  | _ => none

/-- The transaction a call is about, by its id or by the secret of its callback. -/
def Call.subject : Call → Option (Uuid ⊕ String)
  | .transactionClientId id | .cancelGoogle id .. => some (.inl id)
  | .approve _ handle _ | .approvePreAuthorized _ handle _ | .consentView _ handle _
  | .deny _ handle _ => some (.inl handle.transactionId)
  | .callbackClientId claim | .denyCallback claim _ | .completeCallback claim .. =>
      some (.inr claim)
  | _ => none

/-- The call neither begins a transaction nor approves one nor issues a code. -/
def Call.quiet : Call → Bool
  | .beginGoogle .. | .beginAuthenticated .. | .approve .. | .issueAuthorizationCode .. => false
  | _ => true

namespace Web

open Sql (Process)
open Sql.Process

/-! ## 1. Records -/

/-- The client resolved to the registry. -/
def Resolved (h : Record) (client : String) (R : ClientRegistry) : Prop :=
  Sql.Happening.answered (I := surroundings) (Ask.resolve client) (some R) ∈ h

theorem Resolved.mono {h h' : Record} {client : String} {R : ClientRegistry}
    (hR : Resolved h client R) (hh : h <+: h') : Resolved h' client R := hh.subset hR

/-- The client is the one of a call's transaction: it was asked for by the same id or secret, or
    the transaction began with it. -/
inductive Names (h : Record) (call : Call) (client : String) : Prop where
  | told {n : Nat} {q : Call} (hcall : .called n q ∈ h)
      (hreply : .replied n (some (.client (.ok client))) ∈ h) (hsame : q.subject = call.subject)
  | began {n : Nat} {session : ProviderSession} {pending : PendingAuthorizationGrant}
      {state nonce : Option String} {allow : Bool} {handle : ConsentHandle}
      (hcall : .called n (.beginAuthenticated session pending state nonce allow) ∈ h)
      (hreply : .replied n (some (.handle (.ok handle))) ∈ h) (hclient : pending.clientId = client)
      (hsame : call.subject = some (.inl handle.transactionId))

theorem Names.mono {h h' : Record} {call : Call} {client : String} (hN : Names h call client)
    (hh : h <+: h') : Names h' call client := by
  cases hN with
  | told hcall hreply hsame => exact .told (hh.subset hcall) (hh.subset hreply) hsame
  | began hcall hreply hclient hsame =>
      exact .began (hh.subset hcall) (hh.subset hreply) hclient hsame

/-- The request has one client and one redirect URI. -/
def Requested (C : HttpCrates) (req : HttpRequest) (client redirect : String) : Prop :=
  ∃ raw headers q, req.authorize = some (raw, headers) ∧ pairs C raw 8192 = some q ∧
    one q "client_id" = some client ∧ one q "redirect_uri" = some redirect

/-- The request is a well-formed authorization request. -/
def Asked (C : HttpCrates) (req : HttpRequest) (a : AuthorizeParams) : Prop :=
  ∃ raw headers q, req.authorize = some (raw, headers) ∧ pairs C raw 8192 = some q ∧
    readAuthorize q = .ok a

/-- The request has at most one state. -/
def Stated (C : HttpCrates) (req : HttpRequest) (state : Option String) : Prop :=
  ∃ raw headers q, req.authorize = some (raw, headers) ∧ pairs C raw 8192 = some q ∧
    optional q "state" = .ok state

/-- **The handler may start a transaction**: for its request, under a policy that the client
    resolved to and that accepts the request. -/
structure Starts (C : HttpCrates) (req : HttpRequest) (h : Record) (a : AuthorizeParams)
    (R : ClientRegistry) (pending : PendingAuthorizationGrant) : Prop where
  asked : Asked C req a
  resolved : Resolved h a.client R
  pending : ∃ now, R.validatePending C.toPlatform now a.request = .ok pending

/-- The handler is that of a consent form with an approval. -/
def Approves (C : HttpCrates) (req : HttpRequest) (handle : ConsentHandle) : Prop :=
  ∃ headers body, req = .consentPost headers body ∧
    (pairsBytes C body 4096).bind readConsent =
      some (handle.transactionId, handle.csrf, "approve")

/-- **The calls a handler may make** after its record so far. -/
structure MayCall (C : HttpCrates) (req : HttpRequest) (h : Record) (call : Call) : Prop where
  begins : ∀ pending state nonce allow, call.begins = some (pending, state, nonce, allow) →
    ∃ a R, Starts C req h a R pending ∧ state = a.downstream ∧ nonce = a.nonce ∧
      allow = a.allows R pending
  policy : ∀ registry, call.policy = some registry → ∃ client R, registry = some R ∧
    Resolved h client R ∧ Names h call client
  approves : ∀ session handle R, call = .approve session handle R → Approves C req handle
  issues : ∀ session grant lifetime, call ≠ .issueAuthorizationCode session grant lifetime

theorem MayCall.quiet {C : HttpCrates} {req : HttpRequest} {h : Record} {call : Call}
    (hquiet : call.quiet = true) (hpolicy : ∀ registry, call.policy = some registry →
      ∃ client R, registry = some R ∧ Resolved h client R ∧ Names h call client) :
    MayCall C req h call where
  begins _ _ _ _ e := by
    cases call with
    | beginGoogle | beginAuthenticated => cases hquiet
    | _ => cases e
  policy := hpolicy
  approves _ _ _ e := by
    subst e
    cases hquiet
  issues _ _ _ e := by
    subst e
    cases hquiet

/-- Such a call under no policy. -/
theorem MayCall.plain {C : HttpCrates} {req : HttpRequest} {h : Record} {call : Call}
    (hquiet : call.quiet = true) (hpolicy : call.policy = none) : MayCall C req h call :=
  .quiet hquiet fun _ e => by
    rw [hpolicy] at e
    cases e

/-- The same, under the policy a client resolved to. -/
theorem MayCall.under {C : HttpCrates} {req : HttpRequest} {h : Record} {call : Call}
    {client : String} {R : ClientRegistry} (hR : Resolved h client R)
    (hnames : Names h call client) (hquiet : call.quiet = true)
    (hpolicy : call.policy = some (some R)) : MayCall C req h call :=
  .quiet hquiet fun registry e => by
    rw [hpolicy] at e
    cases e
    exact ⟨client, R, rfl, hR, hnames⟩

/-! ## 2. Responses -/

/-- The parameters a client is sent: a code or an error, the state and the issuer. -/
def sent (issuer : String) (item : String × String) (state : Option String) :
    List (String × Option String) :=
  [(item.1, some item.2), ("state", state), ("iss", some issuer)]

/-- **Where a browser is sent, and what was checked last for it**: to the redirect URI of the
    request, trusted by a policy that was still fresh, or to the one of an outcome. -/
inductive Sends (C : HttpCrates) (p : Provider) (req : HttpRequest) (h : Record) (base : String)
    (items : List (String × Option String)) : Prop where
  | error {client code : String} {state : Option String} {R : ClientRegistry} {now : Instant}
      {past : Record} (hparam : Requested C req client base) (hstate : Stated C req state)
      (hR : Resolved h client R) (htrusted : R.trustedRedirect C.toPlatform client base = true)
      (hlast : h = past ++ [.answered (I := surroundings) Ask.instant now])
      (hfresh : R.ensureFresh now = .ok ()) (hitems : items = sent p.issuer ("error", code) state)
  | outcome {n : Nat} {call : Call} {r : Reply} {past : Record} {item : String × String}
      {state : Option String} (hlast : h = past ++ [.called n call, .replied n (some r)])
      (hbase : r.returns = some (base, item, state)) (hitems : items = sent p.issuer item state)

/-- A cookie a response sets: one it clears, the session of a login, or the binding of a
    transaction whose request came with fewer than four of them. -/
inductive CookieOf (p : Provider) (req : HttpRequest) (h : Record) (c : SetCookie) : Prop where
  | clear {name : String} (hc : c = ⟨name, "", some 0, p.secure⟩)
  | session {n : Nat} {claim : String} {identity : VerifiedGoogleIdentity} {lifetime : Duration}
      {registry : Option ClientRegistry} {completion : LoginCompletion}
      (hcall : .called n (.completeCallback claim identity lifetime registry) ∈ h)
      (hreply : .replied n (some (.completed (.ok completion))) ∈ h)
      (hc : c = ⟨sessionCookie p.secure, completion.session.raw, none, p.secure⟩)
  | transaction {raw : String} {headers : HeaderMap} {n : Nat}
      {pending : PendingAuthorizationGrant} {state nonce : Option String} {allow : Bool}
      {start : BrowserStart} (hreq : req.authorize = some (raw, headers))
      (hcount : transactionCookieCount headers p.secure < 4)
      (hcall : .called n (.beginGoogle pending state nonce allow) ∈ h)
      (hreply : .replied n (some (.begun (.ok start))) ∈ h)
      (hc : c = ⟨txCookie start.transactionId p.secure, start.browserBinding, some 600,
        p.secure⟩)

/-- **What a handler answers.** -/
structure Ends (C : HttpCrates) (p : Provider) (req : HttpRequest) (h : Record) (r : Response) :
    Prop where
  sends : ∀ base items, r.page.client = some (base, items) → Sends C p req h base items
  requested : ∀ e, r.page.client = some e → req.authorize.isSome →
    ∃ client redirect R, Requested C req client redirect ∧ Resolved h client R ∧
      R.trustedRedirect C.toPlatform client redirect = true
  cookies : ∀ c ∈ r.setCookies, CookieOf p req h c
  lone : req.authorize.isSome = true → r.setCookies.length ≤ 1

/-! ## 3. Parts of handlers -/

section Parts

variable {ok : (q : surroundings.Ask) → surroundings.Answer q → Prop}
  {may : Record → surroundings.Call → Prop} {h : Record} {α : Type}

/-- **A call of a store**: its value comes with the call and its reply at the end of the
    record. -/
theorem meets_called {call : Call} {value : Reply → Option (Except BrowserError α)}
    {Q : Record → Except BrowserError α → Prop} (hmay : may h call)
    (hok : ∀ n r x, value r = some (.ok x) →
      Q (h ++ [.called n call, .replied n (some r)]) (.ok x))
    (herr : ∀ n r e, Q (h ++ [.called n call, .replied n r]) (.error e)) :
    Meets (I := surroundings) ok may (store call value) h Q := by
  unfold store
  rw [meets_map, meets_perform]
  refine ⟨hmay, fun n r => ?_⟩
  cases r with
  | none => exact herr n none _
  | some r =>
      show Q _ ((value r).getD (.error .database))
      cases hx : value r with
      | none => exact herr n (some r) _
      | some x =>
          cases x with
          | ok x => exact hok n r x hx
          | error e => exact herr n (some r) e

theorem meets_calledOr {call : Call} {value : Reply → Option (Except BrowserError α)}
    {error : String} {Q : Record → Except String α → Prop} (hmay : may h call)
    (hok : ∀ n r x, value r = some (.ok x) →
      Q (h ++ [.called n call, .replied n (some r)]) (.ok x))
    (herr : ∀ n r, Q (h ++ [.called n call, .replied n r]) (.error error)) :
    Meets (I := surroundings) ok may (storeOr call value error).run h Q := by
  show Meets (I := surroundings) ok may
    ((fun r => r.mapError fun _ => error) <$> store call value) h Q
  rw [meets_map]
  exact meets_called hmay hok fun n r _ => herr n r

/-- The same, for an error whose record does not matter. -/
theorem meets_store {call : Call} {value : Reply → Option (Except BrowserError α)}
    {Q : Record → Except BrowserError α → Prop} (hmay : may h call)
    (hok : ∀ n r x, value r = some (.ok x) →
      Q (h ++ [.called n call, .replied n (some r)]) (.ok x))
    (herr : ∀ h' e, h <+: h' → Q h' (.error e)) :
    Meets (I := surroundings) ok may (store call value) h Q :=
  meets_called hmay hok fun _ _ e => herr _ e (List.prefix_append ..)

theorem meets_storeOr {call : Call} {value : Reply → Option (Except BrowserError α)}
    {error : String} {Q : Record → Except String α → Prop} (hmay : may h call)
    (hok : ∀ n r x, value r = some (.ok x) →
      Q (h ++ [.called n call, .replied n (some r)]) (.ok x))
    (herr : ∀ h', h <+: h' → Q h' (.error error)) :
    Meets (I := surroundings) ok may (storeOr call value error).run h Q :=
  meets_calledOr hmay hok fun _ _ => herr _ (List.prefix_append ..)

theorem meets_resolve {client : String} {Q : Record → Option ClientRegistry → Prop}
    (hnone : ∀ h', h <+: h' → Q h' none)
    (hsome : ∀ h' R, h <+: h' → Resolved h' client R → Q h' (some R)) :
    Meets (I := surroundings) ok may (resolveClient client) h Q := by
  intro a _
  have hh : h <+: h ++ [.answered (I := surroundings) (Ask.resolve client) a] :=
    List.prefix_append ..
  match a with
  | none => exact hnone _ hh
  | some R => exact hsome _ R hh (List.mem_append_right _ List.mem_cons_self)

theorem meets_instantNow {Q : Record → Instant → Prop}
    (hQ : ∀ now, Q (h ++ [.answered (I := surroundings) Ask.instant now]) now) :
    Meets (I := surroundings) ok may instantNow h Q := fun now _ => hQ now

theorem meets_utcNow {Q : Record → Time → Prop} (hQ : ∀ h' now, h <+: h' → Q h' now) :
    Meets (I := surroundings) ok may utcNow h Q := fun now _ => hQ _ now (List.prefix_append ..)

/-- **Two attempts**: a value is that of a call under a policy the client resolved to. -/
theorem meets_attempts {client : String} {call : ClientRegistry → Handler (Except BrowserError α)}
    {Q : Record → Except (Option BrowserError) α → Prop}
    (hcall : ∀ h' R, h <+: h' → Resolved h' client R →
      Meets (I := surroundings) ok may (call R) h' fun h'' r => ∀ x, r = .ok x → Q h'' (.ok x))
    (herr : ∀ h' e, h <+: h' → Q h' (.error e)) :
    Meets (I := surroundings) ok may (attempts client call) h Q := by
  unfold attempts
  rw [meets_bind]
  refine meets_resolve (fun h' hh => herr h' none hh) fun h₁ R hh₁ hR => ?_
  refine meets_bind.mpr ((hcall h₁ R hh₁ hR).mono fun h₂ r hh₂ hr => ?_)
  have hh₂ := hh₁.trans hh₂
  cases r with
  | ok x => exact hr x rfl
  | error e =>
      cases e with
      | metadataExpired =>
          refine meets_bind.mpr (meets_resolve (fun h' hh => herr h' none (hh₂.trans hh)) ?_)
          intro h₃ R' hh₃ hR'
          have hh₃ := hh₂.trans hh₃
          refine meets_map.mpr ((hcall h₃ R' hh₃ hR').mono fun h₄ r hh₄ hr => ?_)
          cases r with
          | ok x => exact hr x rfl
          | error e => exact herr h₄ (some e) (hh₃.trans hh₄)
      | invalid => exact herr h₂ _ hh₂
      | policyChanged => exact herr h₂ _ hh₂
      | database => exact herr h₂ _ hh₂

theorem asClient_eq {r : Reply} {client : String} (h : r.asClient = some (.ok client)) :
    r = .client (.ok client) := by
  cases r <;> cases h
  rfl

theorem meets_attemptsFor {client : Call} {call : ClientRegistry → Handler (Except BrowserError α)}
    {Q : Record → Except (Option BrowserError) α → Prop} (hmay : may h client)
    (hcall : ∀ h' name R, h <+: h' → Resolved h' name R →
      (∀ c : Call, client.subject = c.subject → Names h' c name) →
      Meets (I := surroundings) ok may (call R) h' fun h'' r => ∀ x, r = .ok x → Q h'' (.ok x))
    (herr : ∀ h' e, h <+: h' → Q h' (.error e)) :
    Meets (I := surroundings) ok may (attemptsFor (store client Reply.asClient) call) h Q := by
  unfold attemptsFor
  rw [meets_bind]
  refine meets_store hmay (fun n r x hr => ?_) fun h' e hh => herr h' none hh
  have hh : h <+: h ++ [.called n client, .replied n (some r)] := List.prefix_append ..
  obtain rfl := asClient_eq hr
  refine meets_attempts (fun h' R hh' hR => hcall h' x R (hh.trans hh') hR fun c hsame => ?_)
    fun h' e hh' => herr h' e (hh.trans hh')
  exact .told (hh'.subset (List.mem_append_right _ List.mem_cons_self))
    (hh'.subset (List.mem_append_right _ (List.mem_cons_of_mem _ List.mem_cons_self))) hsame

theorem meets_sessionFrom {p : Provider} {headers : HeaderMap}
    {Q : Record → Option ProviderSession → Prop} (hmay : ∀ raw, may h (.findProviderSession raw))
    (hQ : ∀ h' s, h <+: h' → Q h' s) :
    Meets (I := surroundings) ok may (sessionFrom p headers) h Q := by
  unfold sessionFrom
  split
  · exact hQ h none (List.prefix_refl h)
  · exact meets_map.mpr (meets_store (hmay _) (fun n r x _ => hQ _ _ (List.prefix_append ..))
      fun h' e hh => hQ h' _ hh)

end Parts

/-! ## 4. Pages -/

section Pages

variable {C : HttpCrates} {p : Provider} {req : HttpRequest} {h : Record}
  {ok : (q : surroundings.Ask) → surroundings.Answer q → Prop}

/-- A page of our own, without cookies. -/
theorem ends_page {r : Response} (hclient : r.page.client = none) (hcookies : r.setCookies = []) :
    Ends C p req h r where
  sends base items e := by
    rw [hclient] at e
    cases e
  requested e he := by
    rw [hclient] at he
    cases he
  cookies c hc := by
    rw [hcookies] at hc
    cases hc
  lone _ := by
    rw [hcookies]
    exact Nat.zero_le 1

theorem ends_localError {message : String} : Ends C p req h (localError message) :=
  ends_page rfl rfl

/-- A cleared cookie more, for a handler other than authorize. -/
theorem ends_clear {r : Response} {name : Option String} (hreq : req.authorize = none)
    (hr : Ends C p req h r) :
    Ends C p req h (clearTransactionCookie r name p.secure) where
  sends base items e := hr.sends base items (by rwa [clearTransactionCookie_page] at e)
  requested e he := hr.requested e (by rwa [clearTransactionCookie_page] at he)
  cookies c hc := by
    cases name with
    | none => exact hr.cookies c hc
    | some name =>
        rcases List.mem_append.mp hc with hc | hc
        · exact hr.cookies c hc
        · exact .clear (List.mem_singleton.mp hc)
  lone hsome := by
    rw [hreq] at hsome
    cases hsome

/-- **A redirect to the URI of an outcome**, for a handler other than authorize. -/
theorem ends_outcome {n : Nat} {call : Call} {r : Reply} {response : Response} {base : String}
    {item : String × String} {state : Option String} (hreq : req.authorize = none)
    (hpage : response.page.client = some (base, sent p.issuer item state))
    (hcookies : response.setCookies = []) (hbase : r.returns = some (base, item, state)) :
    Ends C p req (h ++ [.called n call, .replied n (some r)]) response where
  sends base' items' e := by
    rw [hpage] at e
    cases e
    exact .outcome rfl hbase rfl
  requested e he hsome := by
    rw [hreq] at hsome
    cases hsome
  cookies c hc := by
    rw [hcookies] at hc
    cases hc
  lone _ := by
    rw [hcookies]
    exact Nat.zero_le 1

/-- The consent page, or a local error. -/
theorem consentPage_meets {session : ProviderSession} {handle : ConsentHandle}
    {Q : Record → Response → Prop}
    (hQ : ∀ h' r, h <+: h' → r.page.client = none → r.setCookies = [] → Q h' r) :
    Meets (I := surroundings) ok (MayCall C req) (consentPage session handle) h Q := by
  unfold consentPage
  rw [meets_bind]
  refine meets_attemptsFor (.plain rfl rfl) (fun h₁ client R hh₁ hR hnames => ?_)
    fun h' e hh => hQ h' _ hh rfl rfl
  refine meets_store (.under hR (hnames _ rfl) rfl rfl) (fun n r x _ y hy => ?_)
    fun h' e hh x hx => (by cases hx)
  exact hQ _ _ (hh₁.trans (List.prefix_append ..)) rfl rfl

end Pages

/-! ## 5. `authorize` -/

section Authorize

variable {C : HttpCrates} {p : Provider} {req : HttpRequest} {h : Record}
  {ok : (q : surroundings.Ask) → surroundings.Answer q → Prop}

theorem Starts.mono {h' : Record} {a : AuthorizeParams} {R : ClientRegistry}
    {pending : PendingAuthorizationGrant} (hs : Starts C req h a R pending) (hh : h <+: h') :
    Starts C req h' a R pending := ⟨hs.asked, hs.resolved.mono hh, hs.pending⟩

/-- What `authorize_valid` answers when it does not fail: a page of its own, Google's, or the
    redirect URI of an outcome. -/
structure Granted (p : Provider) (req : HttpRequest) (h : Record) (r : Response) : Prop where
  sends : ∀ base items, r.page.client = some (base, items) → ∃ n call x past item state,
    h = past ++ [.called n call, .replied n (some x)] ∧
      Reply.returns x = some (base, item, state) ∧ items = sent p.issuer item state
  cookies : ∀ c ∈ r.setCookies, CookieOf p req h c
  lone : r.setCookies.length ≤ 1

theorem granted_page {r : Response} (hclient : r.page.client = none)
    (hcookies : r.setCookies = []) : Granted p req h r where
  sends base items e := by
    rw [hclient] at e
    cases e
  cookies c hc := by
    rw [hcookies] at hc
    cases hc
  lone := by
    rw [hcookies]
    exact Nat.zero_le 1

variable {Q : Record → Except String Response → Prop}

theorem checkMaxAge_meets {a : AuthorizeParams} {session : ProviderSession}
    {Q : Record → Except String Unit → Prop} (hQ : ∀ h' r, h <+: h' → Q h' r) :
    Meets (I := surroundings) ok (MayCall C req) (checkMaxAge a session).run h Q := by
  unfold checkMaxAge
  split
  · exact hQ h _ (List.prefix_refl h)
  · refine meets_bindE.mpr (meets_storeOr (.plain rfl rfl) (fun n r x _ => ?_)
      fun h' hh => hQ h' _ hh)
    have hh : h <+: h ++ [.called n (.sessionUpstreamAuthTime session), .replied n (some r)] :=
      List.prefix_append ..
    cases x with
    | none => exact hQ _ _ hh
    | some authTime =>
        refine meets_bindE.mpr (meets_liftE.mpr (meets_utcNow fun h' now hh' => ?_))
        dsimp only
        split
        · exact hQ _ _ (hh.trans hh')
        · exact hQ _ _ (hh.trans hh')

theorem approveAtOnce_meets {R : ClientRegistry} {a : AuthorizeParams} {allow : Bool}
    {session : ProviderSession} {handle : ConsentHandle} {client : String}
    {Q : Record → Except String (Option Response) → Prop} (hR : Resolved h client R)
    (hnames : Names h (.approvePreAuthorized session handle R) client)
    (hsome : ∀ h' r, h <+: h' → Granted p req h' r → Q h' (.ok (some r)))
    (hnone : ∀ h', h <+: h' → Q h' (.ok none)) (herr : ∀ h' e, h <+: h' → Q h' (.error e)) :
    Meets (I := surroundings) ok (MayCall C req)
      (approveAtOnce p R a allow session handle).run h Q := by
  unfold approveAtOnce
  split
  · have hmay : MayCall C req h (.approvePreAuthorized session handle R) :=
      .under hR hnames rfl rfl
    refine meets_bindE.mpr (meets_storeOr hmay (fun n r x hx => ?_) fun h' hh => herr h' _ hh)
    have hh : h <+: h ++ [.called n (.approvePreAuthorized session handle R),
        .replied n (some r)] := List.prefix_append ..
    cases x with
    | none =>
        dsimp only
        split
        · exact herr _ _ hh
        · exact hnone _ hh
    | some o =>
        refine hsome _ _ hh ⟨fun base items e =>
          ⟨n, _, r, h, ("code", o.code), o.downstreamState, rfl, ?_⟩, nofun, Nat.zero_le 1⟩
        cases e
        cases r <;> cases hx
        exact ⟨rfl, rfl⟩
  · exact hnone h (List.prefix_refl h)

theorem asHandle_eq {r : Reply} {handle : ConsentHandle} (h : r.asHandle = some (.ok handle)) :
    r = .handle (.ok handle) := by
  cases r <;> cases h
  rfl

theorem authorizeSession_meets {R : ClientRegistry} {a : AuthorizeParams}
    {pending : PendingAuthorizationGrant} {session : ProviderSession}
    (hs : Starts C req h a R pending)
    (hok : ∀ h' r, h <+: h' → Granted p req h' r → Q h' (.ok r))
    (herr : ∀ h' e, h <+: h' → Q h' (.error e)) :
    Meets (I := surroundings) ok (MayCall C req)
      (authorizeSession p R a pending (a.allows R pending) session).run h Q := by
  unfold authorizeSession
  refine meets_bindE.mpr (checkMaxAge_meets fun h₁ r hh₁ => ?_)
  cases r with
  | error e => exact herr h₁ e hh₁
  | ok _ =>
      dsimp only
      split
      · exact herr h₁ _ hh₁
      · have hmay : MayCall C req h₁ (.beginAuthenticated session pending a.downstream a.nonce
            (a.allows R pending)) :=
          { begins := fun pending' state nonce allow e => by
              cases e
              exact ⟨a, R, hs.mono hh₁, rfl, rfl, rfl⟩
            policy := nofun, approves := nofun, issues := nofun }
        refine meets_bindE.mpr (meets_storeOr hmay (fun n r handle hr => ?_)
          fun h' hh => herr h' _ (hh₁.trans hh))
        obtain rfl := asHandle_eq hr
        obtain ⟨now, hpending⟩ := hs.pending
        have hclient : pending.clientId = a.client := (R.validatePendingParts_ok hpending).1
        have hnames : Names (h₁ ++ [.called n (.beginAuthenticated session pending a.downstream
            a.nonce (a.allows R pending)), .replied n (some (.handle (.ok handle)))])
            (.approvePreAuthorized session handle R) a.client :=
          .began (List.mem_append_right _ List.mem_cons_self)
            (List.mem_append_right _ (List.mem_cons_of_mem _ List.mem_cons_self)) hclient rfl
        have hh₂ : h <+: h₁ ++ [.called n (.beginAuthenticated session pending a.downstream
            a.nonce (a.allows R pending)), .replied n (some (.handle (.ok handle)))] :=
          hh₁.trans (List.prefix_append ..)
        refine meets_bindE.mpr (approveAtOnce_meets (hs.resolved.mono hh₂) hnames
          (fun h' r hh hr => hok h' r (hh₂.trans hh) hr) (fun h' hh => ?_)
          fun h' e hh => herr h' e (hh₂.trans hh))
        exact meets_liftE.mpr (consentPage_meets fun h'' r hh' hclient hcookies =>
          hok h'' r (hh₂.trans (hh.trans hh')) (granted_page hclient hcookies))

/-- The page that sends the browser to Google sets the cookie of its transaction. -/
theorem googlePage_cookies {R : ClientRegistry} {a : AuthorizeParams}
    {pending : PendingAuthorizationGrant} {allow : Bool} {start : BrowserStart} {r : Response}
    (hr : googlePage C p R a pending allow start = .ok r) :
    r.page.client = none ∧ r.setCookies = [⟨txCookie start.transactionId p.secure,
      start.browserBinding, some 600, p.secure⟩] := by
  unfold googlePage at hr
  obtain ⟨challenge, _, hr⟩ := bind_ok hr
  split at hr
  · cases hr
    cases allow
    · exact ⟨rfl, rfl⟩
    · exact ⟨rfl, rfl⟩
  · cases hr

theorem startAtOnce_meets {allow : Bool} {start : BrowserStart}
    {Q : Record → Except String Unit → Prop} (hQ : ∀ h' r, h <+: h' → Q h' r) :
    Meets (I := surroundings) ok (MayCall C req) (startAtOnce allow start).run h Q := by
  unfold startAtOnce
  split
  · exact meets_bindE.mpr (meets_storeOr (.plain rfl rfl)
      (fun n r x _ => hQ _ _ (List.prefix_append ..)) fun h' hh => hQ h' _ hh)
  · exact hQ h _ (List.prefix_refl h)

theorem authorizeGoogle_meets {raw : String} {headers : HeaderMap} {R : ClientRegistry}
    {a : AuthorizeParams} {pending : PendingAuthorizationGrant}
    (hreq : req.authorize = some (raw, headers)) (hs : Starts C req h a R pending)
    (hok : ∀ h' r, h <+: h' → Granted p req h' r → Q h' (.ok r))
    (herr : ∀ h' e, h <+: h' → Q h' (.error e)) :
    Meets (I := surroundings) ok (MayCall C req)
      (authorizeGoogle C p headers R a pending (a.allows R pending)).run h Q := by
  unfold authorizeGoogle
  split
  · exact herr h _ (List.prefix_refl h)
  · split
    · exact herr h _ (List.prefix_refl h)
    · rename_i hcount
      have hmay : MayCall C req h (.beginGoogle pending a.downstream a.nonce
          (a.allows R pending)) :=
        { begins := fun pending' state nonce allow e => by
            cases e
            exact ⟨a, R, hs, rfl, rfl, rfl⟩
          policy := nofun, approves := nofun, issues := nofun }
      refine meets_bindE.mpr (meets_storeOr hmay (fun n r start hx => ?_) fun h' hh => herr h' _ hh)
      have hbegun : r = .begun (.ok start) := by
        cases r <;> cases hx
        rfl
      subst hbegun
      have hh₁ : h <+: h ++ [.called n (.beginGoogle pending a.downstream a.nonce
          (a.allows R pending)), .replied n (some (.begun (.ok start)))] :=
        List.prefix_append ..
      refine meets_bindE.mpr (startAtOnce_meets fun h₂ r hh₂ => ?_)
      cases r with
      | error e => exact herr h₂ e (hh₁.trans hh₂)
      | ok _ =>
          refine meets_fromExcept.mpr ?_
          cases hpage : googlePage C p R a pending (a.allows R pending) start with
          | error e => exact herr h₂ e (hh₁.trans hh₂)
          | ok r =>
              obtain ⟨hclient, hcookies⟩ := googlePage_cookies hpage
              refine hok h₂ r (hh₁.trans hh₂) ⟨fun base items e => ?_, fun c hc => ?_, ?_⟩
              · rw [hclient] at e
                cases e
              · rw [hcookies] at hc
                exact .transaction hreq (Nat.not_le.mp hcount)
                  (hh₂.subset (List.mem_append_right _ List.mem_cons_self))
                  (hh₂.subset (List.mem_append_right _ (List.mem_cons_of_mem _
                    List.mem_cons_self))) (List.mem_singleton.mp hc)
              · rw [hcookies]
                exact Nat.le_refl 1

/-- A required parameter is given once. -/
theorem required_ok {q : List (String × String)} {name v : String} (hv : required q name = .ok v) :
    one q name = some v := by
  unfold required at hv
  split at hv
  · rename_i v' hone
    cases hv
    exact Option.eq_some_of_filter_eq_some hone
  · cases hv

/-- **What was read** of a request that reads well. -/
structure Reads (q : List (String × String)) (a : AuthorizeParams) : Prop where
  client : one q "client_id" = some a.client
  redirect : one q "redirect_uri" = some a.redirect
  scopes : ∃ scope, one q "scope" = some scope ∧
    a.scopes = ((scope.toList.splitOn ' ').filter fun v => !v.isEmpty).map String.ofList
  state : optional q "state" = .ok a.downstream
  prompt : optional q "prompt" = .ok a.prompt
  known : ∀ v ∈ a.prompt, v ∈ ["none", "consent", "login", "select_account"]
  maxAge : ∃ value, optional q "max_age" = .ok value ∧ readMaxAge value = .ok a.maxAge

theorem readAuthorize_reads {q : List (String × String)} {a : AuthorizeParams}
    (ha : readAuthorize q = .ok a) : Reads q a := by
  unfold readAuthorize at ha
  obtain ⟨_, _, ha⟩ := bind_ok ha
  obtain ⟨client, hclient, ha⟩ := bind_ok ha
  obtain ⟨redirect, hredirect, ha⟩ := bind_ok ha
  obtain ⟨responseType, _, ha⟩ := bind_ok ha
  obtain ⟨method, _, ha⟩ := bind_ok ha
  obtain ⟨challenge, _, ha⟩ := bind_ok ha
  obtain ⟨scope, hscope, ha⟩ := bind_ok ha
  obtain ⟨resource, _, ha⟩ := bind_ok ha
  obtain ⟨nonce, _, ha⟩ := bind_ok ha
  obtain ⟨downstream, hstate, ha⟩ := bind_ok ha
  obtain ⟨prompt, hprompt, ha⟩ := bind_ok ha
  dsimp only at ha
  split at ha
  · cases ha
  rename_i hknown
  obtain ⟨age, hage, ha⟩ := bind_ok ha
  obtain ⟨maxAge, hmaxAge, ha⟩ := bind_ok ha
  cases ha
  refine ⟨required_ok hclient, required_ok hredirect, ⟨scope, required_ok hscope, rfl⟩, hstate,
    hprompt, fun v hv => ?_, age, hage, hmaxAge⟩
  obtain rfl : prompt = some v := hv
  by_contra hno
  exact hknown (decide_eq_true hno)

/-- **A request that reads well** has one client and one redirect URI, and at most one state. -/
theorem readAuthorize_ok {q : List (String × String)} {a : AuthorizeParams}
    (ha : readAuthorize q = .ok a) :
    one q "client_id" = some a.client ∧ one q "redirect_uri" = some a.redirect ∧
      optional q "state" = .ok a.downstream :=
  have hreads := readAuthorize_reads ha
  ⟨hreads.client, hreads.redirect, hreads.state⟩

/-- **`authorize_valid`** begins transactions only for the request it validated. -/
theorem authorizeValid_meets {raw : String} {headers : HeaderMap} {q : List (String × String)}
    {client : String} {R : ClientRegistry} (hreq : req.authorize = some (raw, headers))
    (hpairs : pairs C raw 8192 = some q) (hclient : one q "client_id" = some client)
    (hR : Resolved h client R) (hok : ∀ h' r, h <+: h' → Granted p req h' r → Q h' (.ok r))
    (herr : ∀ h' e, h <+: h' → Q h' (.error e)) :
    Meets (I := surroundings) ok (MayCall C req)
      (authorizeValid C p q headers R).run h Q := by
  unfold authorizeValid
  refine meets_bindE.mpr (meets_fromExcept.mpr ?_)
  cases ha : readAuthorize q with
  | error e => exact herr h e (List.prefix_refl h)
  | ok a =>
      refine meets_bindE.mpr (meets_liftE.mpr (meets_instantNow fun now => ?_))
      refine meets_bindE.mpr (meets_fromExcept.mpr ?_)
      cases hpending : R.validatePending C.toPlatform now a.request with
      | error e => exact herr _ _ (List.prefix_append ..)
      | ok pending =>
          have hsame : a.client = client :=
            Option.some.inj ((readAuthorize_ok ha).1.symm.trans hclient)
          have hs : Starts C req h a R pending :=
            ⟨⟨raw, headers, q, hreq, hpairs, ha⟩, hsame ▸ hR, now, hpending⟩
          refine meets_bindE.mpr (meets_liftE.mpr (meets_sessionFrom
            (fun raw => .plain rfl rfl) fun h' s hh => ?_))
          have hh' := (List.prefix_append ..).trans hh
          dsimp only
          split
          · exact herr h' _ hh'
          · split
            · exact authorizeSession_meets (hs.mono hh')
                (fun h'' r hh'' hr => hok h'' r (hh'.trans hh'') hr)
                fun h'' e hh'' => herr h'' e (hh'.trans hh'')
            · exact authorizeGoogle_meets hreq (hs.mono hh')
                (fun h'' r hh'' hr => hok h'' r (hh'.trans hh'') hr)
                fun h'' e hh'' => herr h'' e (hh'.trans hh'')

/-- The lease is checked last. -/
theorem isFresh_meets {R : ClientRegistry} {Q : Record → Bool → Prop}
    (hQ : ∀ h' now, h <+: h' → h' = h ++ [.answered (I := surroundings) Ask.instant now] →
      Q h' (R.ensureFresh now).isOk) :
    Meets (I := surroundings) ok (MayCall C req) (isFresh R) h Q :=
  meets_bind.mpr (meets_instantNow fun now => hQ _ now (List.prefix_append ..) rfl)

/-- **One attempt**: the redirect URI of the request is trusted by what the client resolved to,
    and the lease was fresh at the last check before an error is sent there. -/
theorem authorizeAttempt_meets {raw : String} {headers : HeaderMap}
    {q : List (String × String)} {client redirect : String} {first : Bool}
    (hreq : req.authorize = some (raw, headers)) (hpairs : pairs C raw 8192 = some q)
    (hclient : one q "client_id" = some client)
    (hredirect : one q "redirect_uri" = some redirect) {Q : Record → Option Response → Prop}
    (hsome : ∀ h' r, h <+: h' → Ends C p req h' r → Q h' (some r))
    (hnone : ∀ h', h <+: h' → Q h' none) :
    Meets (I := surroundings) ok (MayCall C req)
      (authorizeAttempt C p q headers client redirect first) h Q := by
  have hparam : Requested C req client redirect :=
    ⟨raw, headers, q, hreq, hpairs, hclient, hredirect⟩
  unfold authorizeAttempt
  refine meets_bind.mpr (meets_resolve (fun h' hh => hsome h' _ hh ends_localError) ?_)
  intro h₁ R hh₁ hR
  dsimp only
  split
  · exact hsome h₁ _ hh₁ ends_localError
  rename_i htrusted
  have htrusted : R.trustedRedirect C.toPlatform client redirect = true := by simpa using htrusted
  split
  · exact hsome h₁ _ hh₁ ends_localError
  rename_i state hstate
  refine meets_bind.mpr (authorizeValid_meets hreq hpairs hclient hR (fun h₂ r hh₂ hr => ?_) ?_)
  · refine hsome h₂ r (hh₁.trans hh₂) ⟨fun base items e => ?_, fun _ _ _ => ?_, hr.cookies,
      fun _ => hr.lone⟩
    · obtain ⟨n, call, x, past, item, state, hlast, hbase, hitems⟩ := hr.sends base items e
      exact .outcome hlast hbase hitems
    · exact ⟨client, redirect, R, hparam, hR.mono hh₂, htrusted⟩
  intro h₂ code hh₂
  refine meets_bind.mpr (isFresh_meets fun h₃ _ hh₃ _ => ?_)
  split
  · exact hnone h₃ (hh₁.trans (hh₂.trans hh₃))
  refine meets_bind.mpr (isFresh_meets fun h₄ now hh₄ hlast => ?_)
  have hh₄ := hh₂.trans (hh₃.trans hh₄)
  have hR := hR.mono hh₄
  split
  · rename_i hfresh
    have hfresh : R.ensureFresh now = .ok () := by
      cases hf : R.ensureFresh now with
      | ok _ => rfl
      | error e =>
          rw [hf] at hfresh
          cases hfresh
    refine hsome h₄ _ (hh₁.trans hh₄) ⟨fun base items e => ?_, fun _ _ _ => ?_, nofun,
      fun _ => Nat.zero_le 1⟩
    · cases e
      exact .error hparam ⟨raw, headers, q, hreq, hpairs, hstate⟩ hR htrusted hlast hfresh rfl
    · exact ⟨client, redirect, R, hparam, hR, htrusted⟩
  · exact hsome h₄ _ (hh₁.trans hh₄) ends_localError

/-- **`authorize`.** -/
theorem authorize_meets {raw : String} {headers : HeaderMap}
    (hreq : req.authorize = some (raw, headers)) :
    Meets (I := surroundings) ok (MayCall C req) (authorize C p raw headers) []
      (Ends C p req) := by
  unfold authorize
  split
  · exact ends_localError
  rename_i q hpairs
  split
  · rename_i client redirect hclient hredirect
    refine meets_bind.mpr (authorizeAttempt_meets hreq hpairs hclient hredirect
      (fun h' r _ hr => hr) fun h' _ => ?_)
    refine meets_bind.mpr (authorizeAttempt_meets hreq hpairs hclient hredirect
      (fun h'' r _ hr => hr) fun h'' _ => ends_localError)
  · exact ends_localError

end Authorize

/-! ## 6. The other handlers -/

section Others

variable {C : HttpCrates} {p : Provider} {req : HttpRequest} {h : Record}
  {ok : (q : surroundings.Ask) → surroundings.Answer q → Prop} {α : Type}

/-- **A call under what a client resolves to**: the outcome is that of the last reply. -/
theorem attemptsCall_meets {client : String} {call : ClientRegistry → Call}
    {value : Reply → Option (Except BrowserError α)}
    {Q : Record → Except (Option BrowserError) α → Prop}
    (hmay : ∀ h' R, h <+: h' → Resolved h' client R → MayCall C req h' (call R))
    (hok : ∀ h' n R r x, value r = some (.ok x) →
      Q (h' ++ [.called n (call R), .replied n (some r)]) (.ok x))
    (herr : ∀ h' e, Q h' (.error e)) :
    Meets (I := surroundings) ok (MayCall C req)
      (attempts client fun registry => store (call registry) value) h Q := by
  refine meets_attempts (fun h₁ R hh₁ hR => ?_) fun h' e _ => herr h' e
  refine meets_store (hmay h₁ R hh₁ hR) (fun n r x hr y hy => ?_) fun h' e _ x hx => by cases hx
  cases hy
  exact hok h₁ n R r x hr

theorem attemptsForCall_meets {client : Call} {call : ClientRegistry → Call}
    {value : Reply → Option (Except BrowserError α)}
    {Q : Record → Except (Option BrowserError) α → Prop} (hclient : MayCall C req h client)
    (hmay : ∀ h' name R, Resolved h' name R →
      (∀ c : Call, client.subject = c.subject → Names h' c name) → MayCall C req h' (call R))
    (hok : ∀ h' n R r x, value r = some (.ok x) →
      Q (h' ++ [.called n (call R), .replied n (some r)]) (.ok x))
    (herr : ∀ h' e, Q h' (.error e)) :
    Meets (I := surroundings) ok (MayCall C req) (attemptsFor (store client Reply.asClient)
      fun registry => store (call registry) value) h Q := by
  refine meets_attemptsFor hclient (fun h₁ name R _ hR hnames => ?_) fun h' e _ => herr h' e
  refine meets_store (hmay h₁ name R hR hnames) (fun n r x hr y hy => ?_) fun h' e _ x hx => by
    cases hx
  cases hy
  exact hok h₁ n R r x hr

theorem denied_outcome {r : Reply} {o : DenialOutcome} (h : r.asDenial = some (.ok o)) :
    r.returns = some (o.redirectUri, ("error", "access_denied"), o.downstreamState) := by
  cases r <;> cases h
  rfl

theorem approved_outcome {r : Reply} {o : ConsentOutcome} (h : r.asApproval = some (.ok o)) :
    r.returns = some (o.redirectUri, ("code", o.code), o.downstreamState) := by
  cases r <;> cases h
  rfl

theorem preApproved_outcome {r : Reply} {o : ConsentOutcome}
    (h : r.asPreApproval = some (.ok (some o))) :
    r.returns = some (o.redirectUri, ("code", o.code), o.downstreamState) := by
  cases r <;> cases h
  rfl

theorem cancel_meets {id : Uuid} {state binding : String} (hreq : req.authorize = none) :
    Meets (I := surroundings) ok (MayCall C req) (cancel p id state binding) h
      (Ends C p req) := by
  unfold cancel
  refine meets_bind.mpr (attemptsForCall_meets (.plain rfl rfl)
    (fun h' client R hR hnames => .under hR (hnames _ rfl) rfl rfl) (fun h' n R r o hr => ?_)
    fun h' e => ends_localError)
  exact ends_clear hreq (ends_outcome hreq rfl rfl (denied_outcome hr))

theorem googleStart_meets {headers : HeaderMap} {body : List UInt8} (hreq : req.authorize = none) :
    Meets (I := surroundings) ok (MayCall C req) (googleStart C p headers body) h
      (Ends C p req) := by
  unfold googleStart
  split
  · exact ends_localError
  split
  · exact ends_localError
  split
  · exact ends_localError
  split
  · exact cancel_meets hreq
  refine meets_bind.mpr (meets_store (.plain rfl rfl) (fun n r x _ => ?_)
    fun h' e _ => ends_localError)
  dsimp only
  split
  · exact ends_localError
  split
  · exact ends_localError
  · exact ends_page rfl rfl

theorem claimFirst_meets {state : String} {cookies : List (String × String)}
    {Q : Record → Option (String × String × String × String) → Prop} (hQ : ∀ h' r, Q h' r) :
    Meets (I := surroundings) ok (MayCall C req) (claimFirst state cookies) h Q := by
  induction cookies generalizing h with
  | nil => exact hQ h none
  | cons e rest ih =>
      obtain ⟨name, binding⟩ := e
      unfold claimFirst
      exact meets_bind.mpr (meets_store (.plain rfl rfl)
        (fun n r x _ => hQ _ _) fun h' e _ => ih)

theorem callbackDenied_meets {claim error : String} (hreq : req.authorize = none) :
    Meets (I := surroundings) ok (MayCall C req) (callbackDenied p claim error) h
      (Ends C p req) := by
  unfold callbackDenied
  split
  · exact meets_bind.mpr (meets_store (.plain rfl rfl)
      (fun n r x _ => ends_localError) fun h' e _ => ends_localError)
  · refine meets_bind.mpr (attemptsForCall_meets (.plain rfl rfl)
      (fun h' client R hR hnames => .under hR (hnames _ rfl) rfl rfl) (fun h' n R r o hr => ?_)
      fun h' e => ends_localError)
    exact ends_outcome hreq rfl rfl (denied_outcome hr)

/-- **After a login**: the session it made is the only cookie set. -/
theorem callbackConsent_meets {completion : LoginCompletion} {n : Nat} {claim : String}
    {identity : VerifiedGoogleIdentity} {lifetime : Duration} {registry : Option ClientRegistry}
    (hreq : req.authorize = none)
    (hcall : .called n (.completeCallback claim identity lifetime registry) ∈ h)
    (hreply : .replied n (some (.completed (.ok completion))) ∈ h) :
    Meets (I := surroundings) ok (MayCall C req) (callbackConsent p completion) h
      (Ends C p req) := by
  have hsession : ∀ {h' : Record}, h <+: h' → ∀ (r : Response), ∀ c ∈ (r.insertCookie
      ⟨sessionCookie p.secure, completion.session.raw, none, p.secure⟩).setCookies,
      CookieOf p req h' c := fun hh r c hc =>
    .session (hh.subset hcall) (hh.subset hreply) (List.mem_singleton.mp hc)
  have hpage : ∀ {h' : Record} {r : Response}, h <+: h' → r.page.client = none →
      Ends C p req h' (r.insertCookie
        ⟨sessionCookie p.secure, completion.session.raw, none, p.secure⟩) := by
    intro h' r hh hclient
    refine ⟨fun base items e => ?_, fun e he => ?_, hsession hh r, fun _ => Nat.le_refl 1⟩
    · rw [insertCookie_page, hclient] at e
      cases e
    · rw [insertCookie_page, hclient] at he
      cases he
  unfold callbackConsent
  refine meets_bind.mpr (meets_attemptsFor (.plain rfl rfl)
    (fun h₁ client R hh₁ hR hnames => ?_) fun h' e hh => ?_)
  · refine meets_store (.under hR (hnames _ rfl) rfl rfl) (fun n r x hr y hy => ?_)
      fun h' e _ x hx => by cases hx
    cases hy
    have hh₂ := hh₁.trans (List.prefix_append h₁ [.called n (.approvePreAuthorized
      completion.session completion.consent R), .replied n (some r)])
    cases x with
    | some o =>
        refine ⟨fun base items e => ?_, fun e _ hsome => ?_, hsession hh₂ _,
          fun _ => Nat.le_refl 1⟩
        · cases e
          exact .outcome rfl (preApproved_outcome hr) rfl
        · rw [hreq] at hsome
          cases hsome
    | none =>
        exact meets_bind.mpr (consentPage_meets fun h' r hh hclient _ =>
          hpage (hh₂.trans hh) hclient)
  · cases e with
    | some e => exact ends_localError
    | none =>
        exact meets_bind.mpr (consentPage_meets fun h'' r hh' hclient _ =>
          hpage (hh.trans hh') hclient)

theorem callbackLogin_meets {claim code verifier nonce : String} (hreq : req.authorize = none) :
    Meets (I := surroundings) ok (MayCall C req) (callbackLogin p claim code verifier nonce) h
      (Ends C p req) := by
  unfold callbackLogin
  refine meets_bind.mpr (meets_request.mpr fun identity _ => ?_)
  cases identity with
  | none =>
      exact meets_bind.mpr (meets_store (.plain rfl rfl)
        (fun n r x _ => ends_localError) fun h' e _ => ends_localError)
  | some identity =>
      refine meets_bind.mpr (attemptsForCall_meets (.plain rfl rfl)
        (fun h' client R hR hnames => .under hR (hnames _ rfl) rfl rfl) (fun h' n R r x hr => ?_)
        fun h' e => ends_localError)
      have hcompleted : r = .completed (.ok x) := by
        cases r <;> cases hr
        rfl
      subst hcompleted
      exact callbackConsent_meets hreq (List.mem_append_right _ List.mem_cons_self)
        (List.mem_append_right _ (List.mem_cons_of_mem _ List.mem_cons_self))

theorem callback_meets {raw : Option String} {headers : HeaderMap} (hreq : req.authorize = none) :
    Meets (I := surroundings) ok (MayCall C req) (callback C p raw headers) h
      (Ends C p req) := by
  unfold callback
  split
  · exact ends_localError
  refine meets_bind.mpr (claimFirst_meets fun h₁ claimed => ?_)
  cases claimed with
  | none => exact ends_localError
  | some claimed =>
      obtain ⟨name, claim, verifier, nonce⟩ := claimed
      dsimp only
      split
      · exact meets_bind.mpr ((callbackDenied_meets hreq).mono fun h' r _ hr => ends_clear hreq hr)
      · exact meets_bind.mpr ((callbackLogin_meets hreq).mono fun h' r _ hr => ends_clear hreq hr)

theorem consentGet_meets {raw : Option String} {headers : HeaderMap} :
    Meets (I := surroundings) ok (MayCall C req) (consentGet C p raw headers) h
      (Ends C p req) := by
  unfold consentGet
  split
  · exact ends_localError
  split
  · refine meets_bind.mpr (meets_sessionFrom (fun raw => .plain rfl rfl)
      fun h' s _ => ?_)
    cases s with
    | none => exact ends_localError
    | some session =>
        exact consentPage_meets fun h'' r _ hclient hcookies => ends_page hclient hcookies
  · exact ends_localError

/-- **The decision of a form**: it approves only what the form says to approve. -/
theorem decide_meets {session : ProviderSession} {handle : ConsentHandle}
    {action client : String} (hreq : req.authorize = none)
    (hnames : ∀ c : Call, c.subject = some (.inl handle.transactionId) → Names h c client)
    (hform : action = "approve" → Approves C req handle) :
    Meets (I := surroundings) ok (MayCall C req) (decide C p session handle action client) h
      (Ends C p req) := by
  unfold decide
  split
  · rename_i happrove
    have hmay : ∀ h' R, h <+: h' → Resolved h' client R →
        MayCall C req h' (.approve session handle R) := by
      intro h' R hh hR
      refine ⟨nofun, fun registry e => ?_, fun s k R' e => ?_, nofun⟩
      · cases e
        exact ⟨client, R, rfl, hR, (hnames _ rfl).mono hh⟩
      · cases e
        exact hform happrove
    refine meets_bind.mpr (attemptsCall_meets hmay (fun h' n R r o hr => ?_)
      fun h' e => ends_localError)
    exact ends_outcome hreq (consentReturn_client ..) (consentReturn_cookies ..)
      (approved_outcome hr)
  split
  · refine meets_bind.mpr (attemptsCall_meets
      (fun h' R hh hR => .under hR ((hnames _ rfl).mono hh) rfl rfl) (fun h' n R r o hr => ?_)
      fun h' e => ends_localError)
    exact ends_outcome hreq (consentReturn_client ..) (consentReturn_cookies ..)
      (denied_outcome hr)
  · exact meets_bind.mpr (meets_resolve (fun h' _ => ends_localError)
      fun h' R _ _ => ends_localError)

theorem consentPost_meets {headers : HeaderMap} {body : List UInt8}
    (hreq : req = .consentPost headers body) :
    Meets (I := surroundings) ok (MayCall C req) (consentPost C p headers body) h
      (Ends C p req) := by
  have hnone : req.authorize = none := by
    rw [hreq]
    rfl
  unfold consentPost
  split
  · exact ends_localError
  rename_i id csrf action hread
  split
  · exact ends_localError
  refine meets_bind.mpr (meets_sessionFrom (fun raw => .plain rfl rfl)
    fun h₁ s _ => ?_)
  cases s with
  | none => exact ends_localError
  | some session =>
      refine meets_bind.mpr (meets_store (.plain rfl rfl) (fun n r client hr => ?_)
        fun h' e _ => ends_localError)
      obtain rfl := asClient_eq hr
      refine decide_meets hnone (fun c hsame => ?_) fun happrove => ⟨headers, body, hreq, ?_⟩
      · exact .told (List.mem_append_right _ List.mem_cons_self)
          (List.mem_append_right _ (List.mem_cons_of_mem _ List.mem_cons_self)) hsame.symm
      · rw [hread, happrove]

end Others

/-! ## 7. Every handler -/

/-- **What every handler calls and answers**, whatever it is answered. -/
theorem handle_meets (C : HttpCrates) (p : Provider) (req : HttpRequest)
    {ok : (q : surroundings.Ask) → surroundings.Answer q → Prop} :
    Meets (I := surroundings) ok (MayCall C req) (handle C p req) [] (Ends C p req) := by
  cases req with
  | authorizeGet raw headers => exact authorize_meets rfl
  | authorizePost headers body => exact authorize_meets rfl
  | googleStart headers body => exact googleStart_meets rfl
  | callback raw headers => exact callback_meets rfl
  | consentGet raw headers => exact consentGet_meets
  | consentPost headers body => exact consentPost_meets rfl

end Web

end Eri
