/-
  File:      Eri/Policy.lean
  Subject:   One policy, checked in several places (src/oauth.rs, src/browser.rs).

  An authorization request is checked when it arrives, again from its stored row when it is
  approved, and once more, by code of its own, at every refresh.

  * `FirstPartyClient.Built`, `ClientRegistry.Built` -- what the constructors return, with
    `Built.registered` and `Built.tokens`;
  * `Admits`, `validatePendingParts_iff` -- exactly what an accepted request has shown;
  * **`policy_agreement`** -- what one check accepts, no other refuses under the same policy.
-/
import Eri.Projection
import Eri.Redirects

namespace Eri

open ClientRegistry

variable {P : Platform}

/-! ## 1. Constructed registries -/

theorem FirstPartyClient.withAuthorizationFlow_ok {id displayName : String}
    {redirects : List RegisteredRedirect} {scopes resources : Finset String}
    {defaultResource : Option String} {browserOrigins postLogoutRedirects : Finset String}
    {flow : AuthorizationFlow} {c : FirstPartyClient}
    (h : FirstPartyClient.withAuthorizationFlow P id displayName redirects scopes resources
      defaultResource browserOrigins postLogoutRedirects flow = .ok c) :
    id ≠ "" ∧ (∀ s ∈ scopes, validScopeToken s = true) ∧
      c = ⟨id, displayName, redirects, scopes, resources, defaultResource, browserOrigins,
        postLogoutRedirects, flow, .interactive⟩ := by
  unfold FirstPartyClient.withAuthorizationFlow at h
  split at h
  · cases h
  rename_i hdeclared
  split at h
  · cases h
  cases h
  refine ⟨fun e => hdeclared (Or.inl (by simp [e])), fun s hs => ?_, rfl⟩
  by_contra hno
  exact hdeclared (Or.inr (Or.inr (Or.inr (Or.inr ⟨s, hs, hno⟩))))

/-- **A client the constructors return**, with redirects they returned. -/
inductive FirstPartyClient.Built (P : Platform) : FirstPartyClient → Prop where
  | declared {id displayName : String} {redirects : List RegisteredRedirect}
      {scopes resources : Finset String} {defaultResource : Option String}
      {browserOrigins postLogoutRedirects : Finset String} {flow : AuthorizationFlow}
      {c : FirstPartyClient}
      (hredirects : ∀ r ∈ redirects, RegisteredRedirect.new P r.uri r.kind = .ok r)
      (h : FirstPartyClient.withAuthorizationFlow P id displayName redirects scopes resources
        defaultResource browserOrigins postLogoutRedirects flow = .ok c) :
      FirstPartyClient.Built P c
  | logoutFlow {c : FirstPartyClient} (h : FirstPartyClient.Built P c) (flow : LogoutFlow) :
      FirstPartyClient.Built P (c.withLogoutFlow flow)

/-- **A registry the constructors return**, of such clients, with any number of projections. -/
inductive ClientRegistry.Built (P : Platform) : ClientRegistry → Prop where
  | new {clients : List FirstPartyClient} {R : ClientRegistry}
      (hclients : ∀ c ∈ clients, c.Built P) (h : ClientRegistry.new clients = .ok R) :
      ClientRegistry.Built P R
  | withIssuer {clients : List FirstPartyClient} {issuer : String} {R : ClientRegistry}
      (hclients : ∀ c ∈ clients, c.Built P)
      (h : ClientRegistry.withIssuer P clients issuer = .ok R) : ClientRegistry.Built P R
  | projectCimd {R R' : ClientRegistry} {now : Instant} {snapshot : LeasedClientMetadata}
      {scopes resources : List String} {allowRefresh : Bool} (hR : ClientRegistry.Built P R)
      (h : R.projectCimd P now snapshot scopes resources allowRefresh = .ok R') :
      ClientRegistry.Built P R'

section Clients

variable {c : FirstPartyClient}

theorem FirstPartyClient.Built.registered (h : c.Built P) :
    ∀ r ∈ c.redirects, RegisteredRedirect.new P r.uri r.kind = .ok r := by
  induction h with
  | declared hredirects h =>
      obtain ⟨_, _, rfl⟩ := withAuthorizationFlow_ok h
      exact hredirects
  | logoutFlow _ flow ih => exact ih

theorem FirstPartyClient.Built.tokens (h : c.Built P) :
    ∀ s ∈ c.scopes, validScopeToken s = true := by
  induction h with
  | declared hredirects h =>
      obtain ⟨_, htokens, rfl⟩ := withAuthorizationFlow_ok h
      exact htokens
  | logoutFlow _ flow ih => exact ih

theorem FirstPartyClient.Built.named (h : c.Built P) : c.id ≠ "" := by
  induction h with
  | declared hredirects h =>
      obtain ⟨hid, _, rfl⟩ := withAuthorizationFlow_ok h
      exact hid
  | logoutFlow _ flow ih => exact ih

/-- A registered redirect of a constructed client matches itself. -/
theorem FirstPartyClient.Built.matches_self (h : c.Built P) {r : RegisteredRedirect}
    (hr : r ∈ c.redirects) : redirectMatches P r r.uri = true :=
  redirectMatches_iff.mpr ⟨(RegisteredRedirect.new_safe (h.registered r hr)).1, Or.inl rfl⟩

end Clients

/-- The redirects of a projected client are registered ones. -/
theorem mapM_registered {uris : List String} {redirects : List RegisteredRedirect}
    (h : (uris.mapM fun uri => RegisteredRedirect.new P uri
      (if "http://".isPrefixOf uri then .nativeLoopback else .exact)) = .ok redirects) :
    ∀ r ∈ redirects, RegisteredRedirect.new P r.uri r.kind = .ok r := by
  induction uris generalizing redirects with
  | nil =>
      cases h
      exact fun r hr => nomatch hr
  | cons uri uris ih =>
      rw [List.mapM_cons] at h
      obtain ⟨r, hr, h⟩ := bind_ok h
      obtain ⟨rs, hrs, h⟩ := bind_ok h
      cases h
      intro x hx
      rcases List.mem_cons.mp hx with rfl | hx
      · have hsame := RegisteredRedirect.new_ok hr
        rw [hsame] at hr ⊢
        exact hr
      · exact ih hrs x hx

/-- **Every client of a constructed registry is a constructed client.** -/
theorem ClientRegistry.Built.clients {R : ClientRegistry} (h : R.Built P) :
    ∀ c ∈ R.clients, c.Built P := by
  induction h with
  | new hclients h =>
      unfold ClientRegistry.new build at h
      split at h
      · cases h
        exact hclients
      · cases h
  | withIssuer hclients h =>
      unfold ClientRegistry.withIssuer build at h
      split at h
      · split at h
        · cases h
          exact hclients
        · cases h
      · cases h
  | projectCimd hR h ih =>
      unfold ClientRegistry.projectCimd at h
      simp only [bind, Except.bind] at h
      split at h
      · cases h
      split at h
      · cases h
      rename_i redirects hredirects
      split at h
      · cases h
      rename_i client hclient
      cases h
      intro c hc
      rcases List.mem_append.mp hc with hc | hc
      · exact ih c hc
      · rw [List.mem_singleton] at hc
        exact hc ▸ .declared (mapM_registered hredirects) hclient

theorem ClientRegistry.Built.get {R : ClientRegistry} (h : R.Built P) {clientId : String}
    {c : FirstPartyClient} (hc : R.get clientId = some c) : c.Built P :=
  h.clients c (List.mem_of_find?_eq_some hc)

/-! ## 2. Accepted requests -/

section Requests

variable {R : ClientRegistry} {now : Instant} {clientId redirectUri challenge : String}
variable {scopes : List String} {resource : Option String}

/-- **What a request has to show**: the client it names and the resource that is chosen. -/
structure Admits (P : Platform) (R : ClientRegistry) (now : Instant)
    (clientId redirectUri challenge : String) (scopes : List String) (resource : Option String)
    (client : FirstPartyClient) (chosen : String) : Prop where
  fresh : R.ensureFresh now = .ok ()
  named : ¬((R.dynamicFor clientId).isSome = true ∧ resource = none)
  known : R.get clientId = some client
  canonical : validatePkceChallenge challenge = .ok ()
  redirect : (client.redirects.any fun r => redirectMatches P r redirectUri) = true
  once : scopes.toFinset.card = scopes.length
  nonempty : scopes.toFinset.Nonempty
  tokens : ∀ s ∈ scopes.toFinset, validScopeToken s = true
  declared : scopes.toFinset ⊆ client.scopes
  resolved : (resource.or client.defaultResource).or
    (if "openid" ∈ scopes.toFinset then R.userinfoResource else none) = some chosen
  own : ¬((R.dynamicFor clientId).isSome = true ∧ chosen ∉ client.resources)
  allowed : R.allowsResource client scopes.toFinset chosen = true

/-- The grant of an accepted request. -/
def grantOf (R : ClientRegistry) (clientId redirectUri challenge : String) (scopes : List String)
    (client : FirstPartyClient) (chosen : String) : PendingAuthorizationGrant :=
  { clientId := client.id, redirectUri, scopes := inOrder scopes, resource := chosen
    codeChallenge := challenge, dynamic := R.dynamicFor clientId
    sorted := inOrder_sorted scopes }

/-- **The check of a request, condition by condition.** -/
theorem validatePendingParts_iff {responseType method : String}
    {p : PendingAuthorizationGrant} :
    R.validatePendingParts P now clientId redirectUri responseType method challenge scopes
        resource = .ok p ↔
      responseType = "code" ∧ method = "S256" ∧ ∃ client chosen,
        Admits P R now clientId redirectUri challenge scopes resource client chosen ∧
        p = grantOf R clientId redirectUri challenge scopes client chosen := by
  constructor
  · intro h
    obtain ⟨_, hfresh, h⟩ := bind_ok h
    obtain ⟨hnamed, h⟩ := ite_ok h
    split at h
    · cases h
    rename_i client hclient
    obtain ⟨hcode, h⟩ := ite_ok h
    obtain ⟨hmethod, h⟩ := ite_ok h
    obtain ⟨_, hcanonical, h⟩ := bind_ok h
    obtain ⟨hredirect, h⟩ := ite_ok h
    obtain ⟨hscopes, h⟩ := ite_ok h
    split at h
    · cases h
    rename_i chosen hchosen
    obtain ⟨hown, h⟩ := ite_ok h
    obtain ⟨hallowed, h⟩ := ite_ok h
    cases h
    push Not at hscopes hcode hmethod
    obtain ⟨honce, hnonempty, htokens, hdeclared⟩ := hscopes
    refine ⟨hcode, hmethod, client, chosen, ?_, rfl⟩
    exact ⟨hfresh, hnamed, hclient, hcanonical, by simpa using hredirect, honce, hnonempty,
      by simpa using htokens, hdeclared, hchosen, hown, by simpa using hallowed⟩
  · rintro ⟨rfl, rfl, client, chosen, h, rfl⟩
    have hredirect : ¬(!client.redirects.any fun r => redirectMatches P r redirectUri) = true := by
      simp [h.redirect]
    have hscopes : ¬(¬scopes.toFinset.card = scopes.length ∨ scopes.toFinset = ∅ ∨
        (∃ s ∈ scopes.toFinset, ¬validScopeToken s = true) ∨
        ¬scopes.toFinset ⊆ client.scopes) := by
      push Not
      exact ⟨h.once, h.nonempty, h.tokens, h.declared⟩
    have hallowed : ¬(!R.allowsResource client scopes.toFinset chosen) = true := by
      simp [h.allowed]
    unfold validatePendingParts
    simp only [h.fresh, h.known, h.canonical, bind, Except.bind, if_neg h.named, ne_eq,
      not_true_eq_false, if_false, if_neg hredirect]
    rw [if_neg hscopes, h.resolved]
    dsimp only
    rw [if_neg h.own, if_neg hallowed]
    rfl

/-- An accepted grant, asked for again by its own fields. -/
theorem Admits.again {client : FirstPartyClient} {chosen : String} {later : Instant}
    (h : Admits P R now clientId redirectUri challenge scopes resource client chosen)
    (hlater : R.ensureFresh later = .ok ()) :
    Admits P R later clientId redirectUri challenge (inOrder scopes) (some chosen) client
      chosen := by
  have hset : (inOrder scopes).toFinset = scopes.toFinset := by
    ext s
    simp [inOrder]
  have hlength : (inOrder scopes).toFinset.card = (inOrder scopes).length :=
    List.toFinset_card_of_nodup (inOrder_sorted scopes).nodup
  have hnamed : ¬((R.dynamicFor clientId).isSome = true ∧ some chosen = none) :=
    fun hnone => Option.some_ne_none _ hnone.2
  exact ⟨hlater, hnamed, h.known, h.canonical, h.redirect, hlength, hset ▸ h.nonempty,
    hset ▸ h.tokens, hset ▸ h.declared, rfl, h.own, hset ▸ h.allowed⟩

/-- Listing scopes in order once more changes nothing. -/
theorem grantOf_again {client : FirstPartyClient} {chosen : String} :
    grantOf R clientId redirectUri challenge (inOrder scopes) client chosen =
      grantOf R clientId redirectUri challenge scopes client chosen := by
  have hsame : inOrder (inOrder scopes) = inOrder scopes :=
    inOrder_of_sorted (inOrder_sorted scopes)
  simp only [grantOf, hsame]

end Requests

/-! ## 3. The other checks -/

section Agreement

variable {R : ClientRegistry} {now later : Instant} {r : AuthorizationRequest}
variable {p : PendingAuthorizationGrant}

theorem validatePending_iff :
    R.validatePending P now r = .ok p ↔
      r.responseType = "code" ∧ r.codeChallengeMethod = "S256" ∧ ∃ client chosen,
        Admits P R now r.clientId r.redirectUri r.codeChallenge r.scopes r.resource client chosen ∧
        p = grantOf R r.clientId r.redirectUri r.codeChallenge r.scopes client chosen :=
  validatePendingParts_iff

/-- **Validation is idempotent**: an accepted grant is accepted as it is. -/
theorem revalidate_accepted (h : R.validatePending P now r = .ok p)
    (hlater : R.ensureFresh later = .ok ()) :
    R.validatePendingParts P later p.clientId p.redirectUri "code" "S256" p.codeChallenge
      p.scopes (some p.resource) = .ok p := by
  obtain ⟨_, _, client, chosen, hadmits, rfl⟩ := validatePending_iff.mp h
  have hid : client.id = r.clientId := get_id hadmits.known
  refine validatePendingParts_iff.mpr ⟨rfl, rfl, client, chosen, ?_, ?_⟩
  · exact hid ▸ hadmits.again hlater
  · have hgrant : grantOf R client.id r.redirectUri r.codeChallenge (inOrder r.scopes) client
        chosen = _ := grantOf_again
    exact hid ▸ hgrant.symm

/-- The binding an accepted grant is stored with is the one the registry looks for. -/
theorem validateBinding_accepted (h : R.validatePending P now r = .ok p)
    (hlater : R.ensureFresh later = .ok ()) :
    R.validateBinding later p.clientId p.cimdBindingJson = .ok () := by
  obtain ⟨_, _, client, chosen, hadmits, rfl⟩ := validatePending_iff.mp h
  have hid : client.id = r.clientId := get_id hadmits.known
  have hknown : R.containsClient r.clientId = true := by
    simp [ClientRegistry.containsClient, hadmits.known]
  unfold validateBinding PendingAuthorizationGrant.cimdBindingJson
  simp only [grantOf, hid, hlater, hknown, bind, Except.bind]
  cases hdynamic : R.dynamicFor r.clientId with
  | none => rfl
  | some d => simp [CimdSecurityBinding.ofJson_toJson]

/-- The lease of an accepted grant is the lease of its registry. -/
theorem ensureFresh_accepted (h : R.validatePending P now r = .ok p)
    (hlater : R.ensureFresh later = .ok ()) : p.ensureFresh later = .ok () := by
  obtain ⟨_, _, client, chosen, _, rfl⟩ := validatePending_iff.mp h
  unfold PendingAuthorizationGrant.ensureFresh freshPolicy
  refine if_neg fun ⟨d, hd, hexpired⟩ => ?_
  obtain ⟨hd, _⟩ := Option.filter_eq_some_iff.mp hd
  unfold ClientRegistry.ensureFresh at hlater
  rw [if_pos ⟨d, hd, hexpired⟩] at hlater
  cases hlater

/-- A refresh of an accepted grant is permitted. -/
theorem permitsRefresh_accepted (h : R.validatePending P now r = .ok p) :
    R.permitsRefresh p.clientId p.scopes p.resource = true := by
  obtain ⟨_, _, client, chosen, hadmits, rfl⟩ := validatePending_iff.mp h
  have hid : client.id = r.clientId := get_id hadmits.known
  have hagain := hadmits.again hadmits.fresh
  unfold permitsRefresh
  simp only [grantOf, hid, hadmits.known, if_neg hadmits.own, hagain.once, hagain.declared,
    hagain.allowed]
  simp

/-- What the check of a refresh permits, the check of a request accepts. -/
theorem permitsRefresh_admits {clientId challenge resource : String} {scopes : List String}
    {client : FirstPartyClient} {redirect : RegisteredRedirect} (hR : R.Built P)
    (hfresh : R.ensureFresh now = .ok ())
    (h : R.permitsRefresh clientId scopes resource = true) (hnonempty : scopes ≠ [])
    (hclient : R.get clientId = some client) (hredirect : redirect ∈ client.redirects)
    (hchallenge : validatePkceChallenge challenge = .ok ()) :
    Admits P R now clientId redirect.uri challenge scopes (some resource) client resource := by
  have hbuilt : client.Built P := hR.get hclient
  unfold permitsRefresh at h
  rw [hclient] at h
  dsimp only at h
  split at h
  · cases h
  rename_i hown
  simp only [Bool.and_eq_true, beq_iff_eq, decide_eq_true_eq] at h
  obtain ⟨⟨honce, hdeclared⟩, hallowed⟩ := h
  have htokens : ∀ s ∈ scopes.toFinset, validScopeToken s = true :=
    fun s hs => hbuilt.tokens s (hdeclared hs)
  have hmatches : (client.redirects.any fun r => redirectMatches P r redirect.uri) = true :=
    List.any_eq_true.mpr ⟨redirect, hredirect, hbuilt.matches_self hredirect⟩
  exact ⟨hfresh, fun hnone => Option.some_ne_none _ hnone.2, hclient, hchallenge, hmatches, honce,
    List.toFinset_nonempty_iff _ |>.mpr hnonempty, htokens, hdeclared, rfl, hown, hallowed⟩

/-- **What one check accepts, no other refuses under the same policy.** A request that a
    registry accepted is accepted again with the same grant, by its own fields and from its
    stored row, for as long as the lease lasts; its binding is the one looked for; it can be
    approved as it is, and refreshed. What may be refreshed, with a scope at all, is in turn
    accepted as a request, with any registered redirect and any canonical challenge. -/
theorem policy_agreement (P : Platform) {R : ClientRegistry} (hR : R.Built P) :
    (∀ now r p, R.validatePending P now r = .ok p →
      R.permitsRefresh p.clientId p.scopes p.resource = true ∧
      ∀ later, R.ensureFresh later = .ok () →
        R.revalidatePending P later p = .ok p ∧
        R.validateBinding later p.clientId p.cimdBindingJson = .ok () ∧
        (∃ g, p.approve later true = .ok g ∧ g.clientId = p.clientId ∧
          g.redirectUri = p.redirectUri ∧ g.scopes = p.scopes ∧ g.resource = p.resource ∧
          g.codeChallenge = p.codeChallenge ∧ g.dynamic = p.dynamic) ∧
        ∀ later', R.ensureFresh later' = .ok () → ∀ row : ConsentRow,
          row.clientId = p.clientId → row.redirectUri = p.redirectUri → row.scopes = p.scopes →
          row.resource = p.resource → row.codeChallenge = p.codeChallenge →
          row.cimdBinding = p.cimdBindingJson → revalidate P R later later' row = .ok p) ∧
    (∀ now, R.ensureFresh now = .ok () → ∀ clientId scopes resource,
      R.permitsRefresh clientId scopes resource = true → scopes ≠ [] →
      ∀ client, R.get clientId = some client → ∀ redirect ∈ client.redirects,
      ∀ challenge, validatePkceChallenge challenge = .ok () →
        ∃ p, R.validatePendingParts P now clientId redirect.uri "code" "S256" challenge scopes
            (some resource) = .ok p ∧
          p.clientId = clientId ∧ p.scopes = inOrder scopes ∧ p.resource = resource) := by
  refine ⟨fun now r p h => ⟨permitsRefresh_accepted h, fun later hlater => ⟨?_, ?_, ?_, ?_⟩⟩,
    fun now hfresh clientId scopes resource h hnonempty client hclient redirect hredirect
      challenge hchallenge => ?_⟩
  · exact revalidate_accepted h hlater
  · exact validateBinding_accepted h hlater
  · have hfresh : p.ensureFresh later = .ok () := ensureFresh_accepted h hlater
    cases hg : p.approve later true with
    | ok g => exact ⟨g, rfl, PendingAuthorizationGrant.approve_ok hg⟩
    | error e =>
        unfold PendingAuthorizationGrant.approve at hg
        simp [hfresh, bind, Except.bind] at hg
  · intro later' hlater' row hclient hredirect hscopes hresource hchallenge hbinding
    unfold revalidate
    rw [hclient, hredirect, hscopes, hresource, hchallenge, hbinding,
      validateBinding_accepted h hlater, revalidate_accepted h hlater']
    rfl
  · have hadmits := permitsRefresh_admits hR hfresh h hnonempty hclient hredirect hchallenge
    exact ⟨_, validatePendingParts_iff.mpr ⟨rfl, rfl, client, resource, hadmits, rfl⟩,
      get_id hclient, rfl, rfl⟩

end Agreement

namespace Sample

theorem registry_built : registry.Built remotePlatform := by
  have hdeclared : FirstPartyClient.withAuthorizationFlow remotePlatform client.id
      client.displayName client.redirects client.scopes client.resources none ∅ ∅
      .googlePreauthorized = .ok client := by decide
  have hclient : client.Built remotePlatform := .declared (by decide) hdeclared
  have hnew : ClientRegistry.new [client] = .ok registry := rfl
  exact .new (fun c hc => List.mem_singleton.mp hc ▸ hclient) hnew

/-- A request for the grant, with its scopes in another order. -/
def request : AuthorizationRequest where
  clientId := grant.clientId
  redirectUri := grant.redirectUri
  responseType := "code"
  codeChallengeMethod := "S256"
  codeChallenge := grant.codeChallenge
  scopes := ["openid", "offline_access"]
  resource := some grant.resource

end Sample

/-- A request that is accepted, and its refresh. -/
theorem policy_agreement_refreshed :
    ∃ p, Sample.registry.validatePending Sample.remotePlatform 0 Sample.request = .ok p ∧
      p.scopes = ["offline_access", "openid"] ∧
      Sample.registry.permitsRefresh p.clientId p.scopes p.resource = true ∧
      Sample.registry.revalidatePending Sample.remotePlatform 9 p = .ok p := by
  have hchecked : ((Sample.registry.validatePending Sample.remotePlatform 0 Sample.request).map
      (·.scopes)).toOption = some ["offline_access", "openid"] := by decide +kernel
  cases h : Sample.registry.validatePending Sample.remotePlatform 0 Sample.request with
  | error e =>
      rw [h] at hchecked
      cases hchecked
  | ok p =>
      rw [h] at hchecked
      obtain ⟨hrefresh, hagain⟩ :=
        (policy_agreement Sample.remotePlatform Sample.registry_built).1 0 _ _ h
      exact ⟨p, rfl, Option.some.inj hchecked, hrefresh, (hagain 9 rfl).1⟩

end Eri
