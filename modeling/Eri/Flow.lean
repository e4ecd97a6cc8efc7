/-
  File:      Eri/Flow.lean
  Subject:   Whose session and whose identity the browser flow acts for (src/web.rs, the handlers
             of the browser flow).

  * `FlowCall` -- a call for a session is for the one of the browser's cookie, or, without a
    decision of the user, for the one of a login that the same request completed; a login is
    completed with the identity that Google vouched for when it was asked in the same request;
    no call is one of another endpoint's;
  * `flow_bind`, `flow_store`, `flow_attempts` -- one rule for each part of a handler;
  * **`handle_flows`** -- every handler keeps to it.
-/
import Eri.Browsing
import Eri.LogoutEndpoint

namespace Eri

namespace Web

open Sql (Process)
open Sql.Process

/-! ## 1. The calls of the flow -/

/-- The session is one of a login that was completed. -/
def LoggedIn (h : Record) (s : ProviderSession) : Prop :=
  ∃ n completion, .replied n (some (.completed (.ok completion))) ∈ h ∧ completion.session = s

/-- The session is the browser's. -/
def Owns (p : Provider) (headers : HeaderMap) (h : Record) (s : ProviderSession) : Prop :=
  SignedIn p headers h s ∨ LoggedIn h s

/-- The browser claimed the callback of a transaction, with one of its cookies. -/
def Claimed (p : Provider) (headers : HeaderMap) (h : Record) (claim verifier nonce : String) :
    Prop :=
  ∃ state name binding n, (name, binding) ∈ transactionCookies headers p.secure ∧
    .called n (.claimCallback state binding) ∈ h ∧
    .replied n (some (.claimed (.ok (claim, verifier, nonce)))) ∈ h

/-- Google vouched for the identity, to the verifier and the nonce of the claim. -/
def Vouched (p : Provider) (headers : HeaderMap) (h : Record) (claim : String)
    (identity : VerifiedGoogleIdentity) : Prop :=
  ∃ code verifier nonce, Claimed p headers h claim verifier nonce ∧
    .answered (I := surroundings) (Ask.exchange code verifier nonce) (some identity) ∈ h

/-- The calls of the flow that name no session. -/
def ofTransaction : Call → Bool
  | .transactionClientId _ | .callbackClientId .. | .beginGoogle .. | .startGoogle ..
  | .cancelGoogle .. | .claimCallback .. | .failCallback .. | .denyCallback .. => true
  | _ => false

/-- **The calls of the flow.** -/
def FlowCall (p : Provider) (headers : HeaderMap) (h : Record) : Call → Prop
  | .findProviderSession raw => cookie headers (sessionCookie p.secure) = some raw
  | .completeCallback claim identity _ _ => Vouched p headers h claim identity
  | .sessionUpstreamAuthTime s | .beginAuthenticated s _ _ _ _ | .approve s _ _
  | .deny s _ _ => SignedIn p headers h s
  | .approvePreAuthorized s _ _ | .consentView s _ _ => Owns p headers h s
  | c => ofTransaction c = true

section Rules

variable {p : Provider} {headers : HeaderMap} {h h' : Record} {α β : Type} {s : ProviderSession}
  {ok : (q : surroundings.Ask) → surroundings.Answer q → Prop}

theorem SignedIn.mono (hs : SignedIn p headers h s) (hh : h <+: h') : SignedIn p headers h' s := by
  obtain ⟨raw, n, hcookie, hcalled, hreplied⟩ := hs
  exact ⟨raw, n, hcookie, hh.subset hcalled, hh.subset hreplied⟩

theorem Owns.mono (hs : Owns p headers h s) (hh : h <+: h') : Owns p headers h' s := by
  rcases hs with hs | ⟨n, completion, hreplied, hsame⟩
  · exact Or.inl (hs.mono hh)
  · exact Or.inr ⟨n, completion, hh.subset hreplied, hsame⟩

theorem Claimed.mono {claim verifier nonce : String}
    (hc : Claimed p headers h claim verifier nonce) (hh : h <+: h') :
    Claimed p headers h' claim verifier nonce := by
  obtain ⟨state, name, binding, n, hcookie, hcalled, hreplied⟩ := hc
  exact ⟨state, name, binding, n, hcookie, hh.subset hcalled, hh.subset hreplied⟩

theorem Vouched.mono {claim : String} {identity : VerifiedGoogleIdentity}
    (hv : Vouched p headers h claim identity) (hh : h <+: h') :
    Vouched p headers h' claim identity := by
  obtain ⟨code, verifier, nonce, hclaimed, hmem⟩ := hv
  exact ⟨code, verifier, nonce, hclaimed.mono hh, hh.subset hmem⟩

/-- From a record on, the process makes only calls of the flow. -/
def Flows (ok : (q : surroundings.Ask) → surroundings.Answer q → Prop) (p : Provider)
    (headers : HeaderMap) (x : Handler α) (h : Record) : Prop :=
  Meets (I := surroundings) ok (FlowCall p headers) x h fun _ _ => True

theorem flow_pure (a : α) : Flows ok p headers (pure a) h := trivial

/-- **One part after another**, with the longer record. -/
theorem flow_bind {x : Handler α} {f : α → Handler β} (hx : Flows ok p headers x h)
    (hf : ∀ a h', h <+: h' → Flows ok p headers (f a) h') : Flows ok p headers (x >>= f) h :=
  meets_bind.mpr (hx.mono fun h' a hh _ => hf a h' hh)

theorem flow_bindE {ε : Type} {x : ExceptT ε (Process surroundings) α}
    {f : α → ExceptT ε (Process surroundings) β} (hx : Flows ok p headers x.run h)
    (hf : ∀ a h', h <+: h' → Flows ok p headers (f a).run h') :
    Flows ok p headers (x >>= f).run h := by
  refine meets_bindE.mpr (hx.mono fun h' r hh _ => ?_)
  cases r with
  | ok a => exact hf a h' hh
  | error e => trivial

theorem flow_liftE {ε : Type} {x : Handler α} (hx : Flows ok p headers x h) :
    Flows ok p headers (liftM x : ExceptT ε (Process surroundings) α).run h := meets_liftE.mpr hx

theorem flow_store {c : Call} {value : Reply → Option (Except BrowserError α)}
    (hc : FlowCall p headers h c) : Flows ok p headers (store c value) h :=
  meets_store hc (fun _ _ _ _ => trivial) fun _ _ _ => trivial

theorem flow_storeOr {c : Call} {value : Reply → Option (Except BrowserError α)} {error : String}
    (hc : FlowCall p headers h c) : Flows ok p headers (storeOr c value error).run h :=
  meets_storeOr hc (fun _ _ _ _ => trivial) fun _ _ => trivial

theorem flow_resolve {client : String} : Flows ok p headers (resolveClient client) h :=
  fun _ _ => trivial

theorem flow_attempts {client : String} {f : ClientRegistry → Handler (Except BrowserError α)}
    (hf : ∀ R h', h <+: h' → Flows ok p headers (f R) h') :
    Flows ok p headers (attempts client f) h :=
  meets_attempts (fun h' R hh _ => (hf R h' hh).mono fun _ _ _ _ _ _ => trivial)
    fun _ _ _ => trivial

theorem flow_attemptsFor {c : Call} {f : ClientRegistry → Handler (Except BrowserError α)}
    (hc : FlowCall p headers h c) (hf : ∀ R h', h <+: h' → Flows ok p headers (f R) h') :
    Flows ok p headers (attemptsFor (store c Reply.asClient) f) h :=
  meets_attemptsFor hc (fun h' _ R hh _ _ => (hf R h' hh).mono fun _ _ _ _ _ _ => trivial)
    fun _ _ _ => trivial

/-- **The session of the cookie is the browser's.** -/
theorem sessionFrom_signedIn : Meets (I := surroundings) ok (FlowCall p headers)
    (sessionFrom p headers) h fun h' r => ∀ s ∈ r, SignedIn p headers h' s := by
  unfold sessionFrom
  split
  · exact nofun
  · rename_i raw hraw
    refine meets_map.mpr (meets_store_iff.mpr ⟨hraw, fun n r s hs => ?_⟩)
    cases hx : (r.bind Reply.asSession).getD (.error .database) with
    | error e =>
        rw [hx] at hs
        cases hs
    | ok s' =>
        rw [hx] at hs
        cases hs
        obtain ⟨reply, rfl, hreply⟩ := reply_of_value hx
        obtain rfl := asSession_eq hreply
        exact ⟨raw, n, hraw, by simp, by simp⟩

/-- What is done with the session of the cookie. -/
theorem flow_session {f : Option ProviderSession → Handler β}
    (hnone : ∀ h', h <+: h' → Flows ok p headers (f none) h')
    (hsome : ∀ s h', h <+: h' → SignedIn p headers h' s → Flows ok p headers (f (some s)) h') :
    Flows ok p headers (sessionFrom p headers >>= f) h := by
  refine meets_bind.mpr (sessionFrom_signedIn.mono fun h' r hh hr => ?_)
  cases r with
  | none => exact hnone h' hh
  | some s => exact hsome s h' hh (hr s rfl)

end Rules

/-! ## 2. The handlers -/

section Handlers

variable {C : HttpCrates} {p : Provider} {headers : HeaderMap} {h : Record} {s : ProviderSession}
  {ok : (q : surroundings.Ask) → surroundings.Answer q → Prop}

theorem consentPage_flows {handle : ConsentHandle} (hs : Owns p headers h s) :
    Flows ok p headers (consentPage s handle) h := by
  unfold consentPage
  refine flow_bind (flow_attemptsFor rfl fun R h' hh => flow_store (hs.mono hh)) fun r h' _ => ?_
  cases r <;> exact flow_pure _

theorem checkMaxAge_flows {a : AuthorizeParams} (hs : SignedIn p headers h s) :
    Flows ok p headers (checkMaxAge a s).run h := by
  unfold checkMaxAge
  split
  · exact flow_pure _
  · refine flow_bindE (flow_storeOr hs) fun authTime h' _ => ?_
    cases authTime with
    | none => exact flow_pure _
    | some time =>
        refine flow_bindE (flow_liftE fun _ _ => trivial) fun now h' _ => ?_
        split <;> exact flow_pure _

theorem approveAtOnce_flows {R : ClientRegistry} {a : AuthorizeParams} {allow : Bool}
    {handle : ConsentHandle} (hs : Owns p headers h s) :
    Flows ok p headers (approveAtOnce p R a allow s handle).run h := by
  unfold approveAtOnce
  split
  · refine flow_bindE (flow_storeOr hs) fun outcome h' _ => ?_
    cases outcome with
    | some outcome => exact flow_pure _
    | none =>
        dsimp only
        split <;> exact flow_pure _
  · exact flow_pure _

theorem authorizeSession_flows {R : ClientRegistry} {a : AuthorizeParams}
    {pending : PendingAuthorizationGrant} {allow : Bool} (hs : SignedIn p headers h s) :
    Flows ok p headers (authorizeSession p R a pending allow s).run h := by
  unfold authorizeSession
  refine flow_bindE (checkMaxAge_flows hs) fun _ h₁ hh₁ => ?_
  split
  · exact flow_pure _
  · refine flow_bindE (flow_storeOr (hs.mono hh₁)) fun handle h₂ hh₂ => ?_
    have hs₂ := (hs.mono hh₁).mono hh₂
    refine flow_bindE (approveAtOnce_flows (Or.inl hs₂)) fun response h₃ hh₃ => ?_
    cases response with
    | some response => exact flow_pure _
    | none => exact flow_liftE (consentPage_flows (Or.inl (hs₂.mono hh₃)))

theorem authorizeGoogle_flows {R : ClientRegistry} {a : AuthorizeParams}
    {pending : PendingAuthorizationGrant} {allow : Bool} :
    Flows ok p headers (authorizeGoogle C p headers R a pending allow).run h := by
  unfold authorizeGoogle
  split
  · exact flow_pure _
  split
  · exact flow_pure _
  refine flow_bindE (flow_storeOr rfl) fun start h₁ _ => ?_
  refine flow_bindE ?_ fun _ h₂ _ => flow_pure _
  unfold startAtOnce
  split
  · exact flow_bindE (flow_storeOr rfl) fun _ _ _ => flow_pure _
  · exact flow_pure _

theorem authorizeValid_flows {q : List (String × String)} {R : ClientRegistry} :
    Flows ok p headers (authorizeValid C p q headers R).run h := by
  unfold authorizeValid
  refine flow_bindE (flow_pure _) fun a h₁ _ => ?_
  refine flow_bindE (flow_liftE fun _ _ => trivial) fun now h₂ _ => ?_
  refine flow_bindE (flow_pure _) fun pending h₃ _ => ?_
  refine meets_bindE.mpr (meets_liftE.mpr ?_)
  refine sessionFrom_signedIn.mono fun h₄ session _ hsession => ?_
  dsimp only
  split
  · exact flow_pure _
  split
  · rename_i s hfilter
    exact authorizeSession_flows (hsession s (Option.filter_eq_some_iff.mp hfilter).1)
  · exact authorizeGoogle_flows

theorem authorizeAttempt_flows {q : List (String × String)} {client redirect : String}
    {first : Bool} :
    Flows ok p headers (authorizeAttempt C p q headers client redirect first) h := by
  have hfresh : ∀ {R h'}, Flows ok p headers (isFresh R) h' := fun {R h'} =>
    flow_bind (fun _ _ => trivial) fun _ _ _ => flow_pure _
  unfold authorizeAttempt
  refine flow_bind flow_resolve fun R h₁ _ => ?_
  cases R with
  | none => exact flow_pure _
  | some R =>
      dsimp only
      split
      · exact flow_pure _
      split
      · exact flow_pure _
      refine flow_bind authorizeValid_flows fun result h₂ _ => ?_
      cases result with
      | ok response => exact flow_pure _
      | error code =>
          refine flow_bind hfresh fun fresh h₃ _ => ?_
          split
          · exact flow_pure _
          refine flow_bind hfresh fun fresh h₄ _ => ?_
          split <;> exact flow_pure _

theorem authorize_flows {raw : String} : Flows ok p headers (authorize C p raw headers) h := by
  unfold authorize
  split
  · exact flow_pure _
  split
  · refine flow_bind authorizeAttempt_flows fun response h₁ _ => ?_
    cases response with
    | some response => exact flow_pure _
    | none => exact flow_bind authorizeAttempt_flows fun second h₂ _ => flow_pure _
  · exact flow_pure _

theorem googleStart_flows {body : List UInt8} :
    Flows ok p headers (googleStart C p headers body) h := by
  unfold googleStart
  split
  · exact flow_pure _
  split
  · exact flow_pure _
  split
  · exact flow_pure _
  split
  · unfold cancel
    refine flow_bind (flow_attemptsFor rfl fun R h' _ => flow_store rfl) fun r h' _ => ?_
    cases r <;> exact flow_pure _
  · refine flow_bind (flow_store rfl) fun r h₁ _ => ?_
    cases r with
    | error e => exact flow_pure _
    | ok started =>
        dsimp only
        split
        · exact flow_pure _
        split <;> exact flow_pure _

theorem asClaim_eq {r : Reply} {x : String × String × String} (h : r.asClaim = some (.ok x)) :
    r = .claimed (.ok x) := by
  cases r with
  | claimed r => exact congrArg Reply.claimed (Option.some.inj h)
  | _ => cases h

/-- **The callback is claimed with a cookie of the browser.** -/
theorem claimFirst_claimed {state : String} : ∀ (cookies : List (String × String)) (h : Record),
    (∀ x ∈ cookies, x ∈ transactionCookies headers p.secure) →
    Meets (I := surroundings) ok (FlowCall p headers) (claimFirst state cookies) h fun h' r =>
      ∀ name claim verifier nonce, r = some (name, claim, verifier, nonce) →
        Claimed p headers h' claim verifier nonce
  | [], _, _ => nofun
  | (name, binding) :: rest, h, hcookies => by
      unfold claimFirst
      refine meets_bind.mpr (meets_store_iff.mpr ⟨rfl, fun n r => ?_⟩)
      cases hx : (r.bind Reply.asClaim).getD (.error .database) with
      | error e =>
          exact claimFirst_claimed rest _ fun x hx => hcookies x (List.mem_cons_of_mem _ hx)
      | ok claimed =>
          obtain ⟨reply, rfl, hreply⟩ := reply_of_value hx
          obtain rfl := asClaim_eq hreply
          rintro name' claim verifier nonce e
          cases e
          exact ⟨state, name, binding, n, hcookies _ List.mem_cons_self, by simp, by simp⟩

theorem callbackDenied_flows {claim error : String} :
    Flows ok p headers (callbackDenied p claim error) h := by
  unfold callbackDenied
  split
  · exact flow_bind (flow_store rfl) fun _ _ _ => flow_pure _
  · refine flow_bind (flow_attemptsFor rfl fun R h' _ => flow_store rfl) fun r h' _ => ?_
    cases r <;> exact flow_pure _

theorem callbackConsent_flows {completion : LoginCompletion}
    (hs : Owns p headers h completion.session) :
    Flows ok p headers (callbackConsent p completion) h := by
  unfold callbackConsent
  refine flow_bind (flow_attemptsFor rfl fun R h' hh => flow_store (hs.mono hh))
    fun approved h₁ hh₁ => ?_
  have hpage : ∀ h', h₁ <+: h' → Flows ok p headers
      (consentPage completion.session completion.consent) h' := fun h' hh =>
    consentPage_flows ((hs.mono hh₁).mono hh)
  match approved with
  | .error (some _) => exact flow_pure _
  | .error none => exact flow_bind (hpage h₁ (List.prefix_refl h₁)) fun _ _ _ => flow_pure _
  | .ok none => exact flow_bind (hpage h₁ (List.prefix_refl h₁)) fun _ _ _ => flow_pure _
  | .ok (some outcome) => exact flow_bind (flow_pure _) fun _ _ _ => flow_pure _

theorem asCompletion_eq {r : Reply} {x : LoginCompletion} (h : r.asCompletion = some (.ok x)) :
    r = .completed (.ok x) := by
  cases r with
  | completed r => exact congrArg Reply.completed (Option.some.inj h)
  | _ => cases h

/-- **A login is completed with the identity that was vouched for.** -/
theorem callbackLogin_flows {claim code verifier nonce : String}
    (hclaimed : Claimed p headers h claim verifier nonce) :
    Flows ok p headers (callbackLogin p claim code verifier nonce) h := by
  unfold callbackLogin
  refine meets_bind.mpr fun answer _ => ?_
  match answer with
  | none => exact flow_bind (flow_store rfl) fun _ _ _ => flow_pure _
  | some identity =>
      have hvouched : ∀ h', h ++ [.answered (I := surroundings) (Ask.exchange code verifier nonce)
          (some identity)] <+: h' → Vouched p headers h' claim identity := fun h' hh =>
        Vouched.mono ⟨code, verifier, nonce, hclaimed.mono (List.prefix_append ..), by simp⟩ hh
      refine meets_bind.mpr (meets_attemptsFor rfl (fun h₁ _ R hh _ _ => ?_) fun _ _ _ => trivial)
      refine meets_store_iff.mpr ⟨hvouched h₁ hh, fun n r x hx => ?_⟩
      obtain ⟨reply, rfl, hreply⟩ := reply_of_value hx
      obtain rfl := asCompletion_eq hreply
      exact callbackConsent_flows (Or.inr ⟨n, x, by simp, rfl⟩)

theorem callback_flows {raw : Option String} : Flows ok p headers (callback C p raw headers) h := by
  unfold callback
  split
  · exact flow_pure _
  · refine meets_bind.mpr ((claimFirst_claimed _ h fun _ hx => hx).mono fun h₁ claimed _ hc => ?_)
    match claimed with
    | none => exact flow_pure _
    | some (name, claim, verifier, nonce) =>
        dsimp only
        split
        · exact flow_bind callbackDenied_flows fun _ _ _ => flow_pure _
        · exact flow_bind (callbackLogin_flows (hc _ _ _ _ rfl)) fun _ _ _ => flow_pure _

theorem consentGet_flows {raw : Option String} :
    Flows ok p headers (consentGet C p raw headers) h := by
  unfold consentGet
  split
  · exact flow_pure _
  split
  · exact flow_session (fun _ _ => flow_pure _) fun s h' _ hs => consentPage_flows (Or.inl hs)
  · exact flow_pure _

theorem decide_flows {handle : ConsentHandle} {action client : String}
    (hs : SignedIn p headers h s) :
    Flows ok p headers (Web.decide C p s handle action client) h := by
  unfold Web.decide
  split
  · refine flow_bind (flow_attempts fun R h' hh => flow_store (hs.mono hh)) fun r h' _ => ?_
    cases r <;> exact flow_pure _
  split
  · refine flow_bind (flow_attempts fun R h' hh => flow_store (hs.mono hh)) fun r h' _ => ?_
    cases r <;> exact flow_pure _
  · refine flow_bind flow_resolve fun r h' _ => ?_
    cases r <;> exact flow_pure _

theorem consentPost_flows {body : List UInt8} :
    Flows ok p headers (consentPost C p headers body) h := by
  unfold consentPost
  split
  · exact flow_pure _
  split
  · exact flow_pure _
  refine flow_session (fun _ _ => flow_pure _) fun s h₁ _ hs => ?_
  refine flow_bind (flow_store rfl) fun client h₂ hh₂ => ?_
  cases client with
  | error e => exact flow_pure _
  | ok client => exact decide_flows (hs.mono hh₂)

/-- **Every handler of the flow** acts for the session of its browser, and for an identity that
    was vouched for. -/
theorem handle_flows (req : HttpRequest) : Flows ok p req.headers (handle C p req) [] := by
  cases req with
  | authorizeGet raw headers => exact authorize_flows
  | authorizePost headers body => exact authorize_flows
  | googleStart headers body => exact googleStart_flows
  | callback raw headers => exact callback_flows
  | consentGet raw headers => exact consentGet_flows
  | consentPost headers body => exact consentPost_flows

end Handlers

end Web

end Eri
