/-
  File:      Eri/Projection.lean
  Subject:   Remote metadata and authority: what a registry resolved for a document decides.

  `project_cimd` adds one client to a registry, for one request, from a document that somebody
  else publishes. Local policy says which scopes and resources it may get.

  * `Projected`, `projectCimd_projected` -- the client that is added and the registry with it;
  * `SameFor` -- two registries in which one client is the same, and in which it is not a
    metadata client;
  * **`cimd_projection`** -- the document grants nothing beyond the policy, and it changes no
    answer about another client.
-/
import Eri.Store

namespace Eri

open ClientRegistry

variable {P : Platform}

/-! ## 1. The added client -/

/-- The redirect a URI of a document is registered as. -/
def RegisteredRedirect.ofDocument (uri : String) : RegisteredRedirect :=
  ⟨uri, if "http://".isPrefixOf uri then .nativeLoopback else .exact⟩

/-- The redirects of a document, when all of them can be registered. -/
theorem mapM_redirects {uris : List String} {redirects : List RegisteredRedirect}
    (h : (uris.mapM fun uri => RegisteredRedirect.new P uri
      (if "http://".isPrefixOf uri then .nativeLoopback else .exact)) = .ok redirects) :
    redirects = uris.map .ofDocument := by
  induction uris generalizing redirects with
  | nil =>
      cases h
      rfl
  | cons uri uris ih =>
      rw [List.mapM_cons] at h
      simp only [bind, Except.bind] at h
      split at h
      · cases h
      rename_i r hr
      split at h
      · cases h
      rename_i rs hrs
      cases h
      rw [ih hrs, RegisteredRedirect.new_ok hr]
      rfl

/-- **The registry with the client of a document**, under a local policy. -/
structure Projected (R R' : ClientRegistry) (snapshot : LeasedClientMetadata)
    (scopes resources : List String) (allowRefresh : Bool) (client : FirstPartyClient) :
    Prop where
  unknown : R.containsClient snapshot.document.clientId = false
  id : client.id = snapshot.document.clientId
  redirects : client.redirects = snapshot.document.redirectUris.map .ofDocument
  scopes : client.scopes = (scopes.filter fun s =>
    (allowRefresh && snapshot.document.refreshAllowed) || s != "offline_access").toFinset
  resources : client.resources = resources.toFinset
  browserOrigins : client.browserOrigins = ∅
  postLogoutRedirects : client.postLogoutRedirects = ∅
  logoutFlow : client.logoutFlow = .interactive
  clients : R'.clients = R.clients ++ [client]
  userinfo : R'.userinfoResource = R.userinfoResource
  dynamic : R'.dynamic = some ⟨snapshot, snapshot.document.securityBinding allowRefresh⟩

theorem projectCimd_projected {R R' : ClientRegistry} {now : Instant}
    {snapshot : LeasedClientMetadata} {scopes resources : List String} {allowRefresh : Bool}
    (h : R.projectCimd P now snapshot scopes resources allowRefresh = .ok R') :
    ∃ client, Projected R R' snapshot scopes resources allowRefresh client := by
  unfold projectCimd at h
  simp only [bind, Except.bind] at h
  split at h
  · cases h
  rename_i hadmitted
  split at h
  · cases h
  rename_i redirects hredirects
  split at h
  · cases h
  rename_i client hclient
  cases h
  have hnew := FirstPartyClient.new_ok hclient
  have hunknown : R.containsClient snapshot.document.clientId = false :=
    Bool.eq_false_iff.mpr fun hin => hadmitted (Or.inl hin)
  subst hnew
  exact ⟨_, hunknown, rfl, mapM_redirects hredirects, rfl, rfl, rfl, rfl, rfl, rfl, rfl, rfl⟩

section Projected

variable {R R' : ClientRegistry} {snapshot : LeasedClientMetadata}
variable {scopes resources : List String} {allowRefresh : Bool} {client : FirstPartyClient}

/-- The added client is found under the id of its document. -/
theorem Projected.get_self
    (h : Projected R R' snapshot scopes resources allowRefresh client) :
    R'.get snapshot.document.clientId = some client := by
  have hnone : R.get snapshot.document.clientId = none := by
    have hunknown := h.unknown
    unfold containsClient at hunknown
    cases hfound : R.get snapshot.document.clientId with
    | none => rfl
    | some c =>
        rw [hfound] at hunknown
        cases hunknown
  unfold ClientRegistry.get at hnone ⊢
  rw [h.clients, List.find?_append, hnone]
  simp [h.id]

/-- Every other client is the one that was declared. -/
theorem Projected.get_other
    (h : Projected R R' snapshot scopes resources allowRefresh client) {clientId : String}
    (hne : clientId ≠ snapshot.document.clientId) : R'.get clientId = R.get clientId := by
  have hother : client.id ≠ clientId := fun e => hne (e.symm.trans h.id)
  unfold ClientRegistry.get
  rw [h.clients, List.find?_append]
  simp [hother]

theorem Projected.dynamicFor_self
    (h : Projected R R' snapshot scopes resources allowRefresh client) :
    (R'.dynamicFor snapshot.document.clientId).isSome = true := by
  simp [dynamicFor, h.dynamic]

theorem Projected.dynamicFor_other
    (h : Projected R R' snapshot scopes resources allowRefresh client) {clientId : String}
    (hne : clientId ≠ snapshot.document.clientId) : R'.dynamicFor clientId = none := by
  simp [dynamicFor, h.dynamic, Ne.symm hne]

end Projected

/-! ## 2. Clients of which two registries know the same -/

/-- **One client is the same in two registries**, and not a metadata client in either. -/
structure SameFor (R R' : ClientRegistry) (now : Instant) (clientId : String) : Prop where
  fresh : R.ensureFresh now = .ok ()
  fresh' : R'.ensureFresh now = .ok ()
  get : R'.get clientId = R.get clientId
  userinfo : R'.userinfoResource = R.userinfoResource
  declared : R.dynamicFor clientId = none
  declared' : R'.dynamicFor clientId = none

section SameFor

variable {R R' : ClientRegistry} {now : Instant} {clientId : String}

theorem SameFor.allowsResource (h : SameFor R R' now clientId) (c : FirstPartyClient)
    (requested : Finset String) (resource : String) :
    R'.allowsResource c requested resource = R.allowsResource c requested resource := by
  unfold ClientRegistry.allowsResource
  rw [h.userinfo]

/-- A request of the client is answered the same. -/
theorem SameFor.validatePendingParts (h : SameFor R R' now clientId)
    (redirectUri responseType method challenge : String) (scopes : List String)
    (resource : Option String) :
    R'.validatePendingParts P now clientId redirectUri responseType method challenge scopes
        resource =
      R.validatePendingParts P now clientId redirectUri responseType method challenge scopes
        resource := by
  unfold ClientRegistry.validatePendingParts
  simp only [h.fresh, h.fresh', h.get, h.userinfo, h.declared, h.declared', h.allowsResource]

theorem SameFor.permitsRefresh (h : SameFor R R' now clientId) (scopes : List String)
    (resource : String) :
    R'.permitsRefresh clientId scopes resource = R.permitsRefresh clientId scopes resource := by
  unfold ClientRegistry.permitsRefresh
  simp only [h.get, h.declared, h.declared', h.allowsResource]

theorem SameFor.validateBinding (h : SameFor R R' now clientId) (stored : Option Json) :
    R'.validateBinding now clientId stored = R.validateBinding now clientId stored := by
  unfold ClientRegistry.validateBinding containsClient
  simp only [h.fresh, h.fresh', h.get, h.declared, h.declared']

theorem SameFor.trustedRedirect (h : SameFor R R' now clientId) (uri : String) :
    R'.trustedRedirect P clientId uri = R.trustedRedirect P clientId uri := by
  unfold ClientRegistry.trustedRedirect
  rw [h.get]

theorem SameFor.validPostLogoutRedirect (h : SameFor R R' now clientId) (uri : String) :
    R'.validPostLogoutRedirect clientId uri = R.validPostLogoutRedirect clientId uri := by
  unfold ClientRegistry.validPostLogoutRedirect
  rw [h.get]

theorem SameFor.validBrowserOrigin (h : SameFor R R' now clientId) (origin : String) :
    R'.validBrowserOrigin clientId origin = R.validBrowserOrigin clientId origin := by
  unfold ClientRegistry.validBrowserOrigin
  rw [h.get]

end SameFor

/-- While the lease lasts, every other client is the same. -/
theorem Projected.sameFor {R R' : ClientRegistry} {snapshot : LeasedClientMetadata}
    {scopes resources : List String} {allowRefresh : Bool} {client : FirstPartyClient}
    {now : Instant} {clientId : String} (hR : R.dynamic = none)
    (h : Projected R R' snapshot scopes resources allowRefresh client)
    (hfresh : snapshot.isFresh now = true) (hne : clientId ≠ snapshot.document.clientId) :
    SameFor R R' now clientId where
  fresh := by simp [ClientRegistry.ensureFresh, hR]
  fresh' := by simp [ClientRegistry.ensureFresh, h.dynamic, hfresh]
  get := h.get_other hne
  userinfo := h.userinfo
  declared := by simp [dynamicFor, hR]
  declared' := h.dynamicFor_other hne

/-! ## 3. Authority -/

/-- A request of a metadata client stays inside the local policy. -/
theorem Projected.accepted {R R' : ClientRegistry} {snapshot : LeasedClientMetadata}
    {scopes resources requested : List String} {allowRefresh : Bool}
    {client client' : FirstPartyClient} {now : Instant} {redirectUri challenge : String}
    {resource : Option String} {p : PendingAuthorizationGrant}
    (h : Projected R R' snapshot scopes resources allowRefresh client)
    (haccepted : Accepted P R' now snapshot.document.clientId redirectUri challenge requested
      resource p client') :
    (∀ s, s ∈ p.scopes ↔ s ∈ requested) ∧ requested ⊆ scopes ∧
      ("offline_access" ∈ requested →
        allowRefresh = true ∧ snapshot.document.refreshAllowed = true) ∧
      (∃ r ∈ resources, resource = some r ∧ p.resource = r) ∧
      ∃ uri ∈ snapshot.document.redirectUris,
        redirectMatches P (.ofDocument uri) redirectUri = true := by
  have hclient : client' = client := Option.some.inj (haccepted.known.symm.trans h.get_self)
  subst hclient
  have hgranted : ∀ s ∈ requested, s ∈ scopes ∧
      ((allowRefresh && snapshot.document.refreshAllowed) || s != "offline_access") = true := by
    intro s hs
    have hdeclared := haccepted.declared (List.mem_toFinset.mpr hs)
    rw [h.scopes, List.mem_toFinset, List.mem_filter] at hdeclared
    exact hdeclared
  refine ⟨fun s => ?_, fun s hs => (hgranted s hs).1, fun hoffline => ?_, ?_, ?_⟩
  · rw [haccepted.ordered]
    simp [inOrder]
  · simpa using (hgranted _ hoffline).2
  · obtain ⟨r, hr, hname⟩ := haccepted.named h.dynamicFor_self
    rw [h.resources, List.mem_toFinset] at hr
    exact ⟨r, hr, hname, haccepted.sameResource r hname⟩
  · obtain ⟨r, hr, hmatches⟩ := haccepted.redirect
    rw [h.redirects, List.mem_map] at hr
    obtain ⟨uri, huri, rfl⟩ := hr
    exact ⟨uri, huri, hmatches⟩

/-- **Remote metadata grants nothing.** A registry resolved for a document, under a local policy
    of scopes, resources and refreshes: what it accepts for the document's client stays inside
    the policy, with a resource that the request names; it skips no consent, takes no ID token
    for a logout, and knows no browser origin and no logout redirect of that client. While the
    lease lasts it answers as before about every other client, and no client is replaced. -/
theorem cimd_projection (P : Platform) {R R' : ClientRegistry} {now : Instant}
    {snapshot : LeasedClientMetadata} {scopes resources : List String} {allowRefresh : Bool}
    (hR : R.dynamic = none)
    (h : R.projectCimd P now snapshot scopes resources allowRefresh = .ok R') :
    (∀ later redirectUri responseType method challenge requested resource p,
      R'.validatePendingParts P later snapshot.document.clientId redirectUri responseType method
        challenge requested resource = .ok p →
      (∀ s, s ∈ p.scopes ↔ s ∈ requested) ∧ requested ⊆ scopes ∧
      ("offline_access" ∈ requested →
        allowRefresh = true ∧ snapshot.document.refreshAllowed = true) ∧
      (∃ r ∈ resources, resource = some r ∧ p.resource = r) ∧
      ∃ uri ∈ snapshot.document.redirectUris,
        redirectMatches P (.ofDocument uri) redirectUri = true) ∧
    ((∀ pending, R'.preAuthorizes pending = false) ∧
      R'.allowsIdTokenLogout snapshot.document.clientId = false ∧
      (∀ origin, R'.validBrowserOrigin snapshot.document.clientId origin = false) ∧
      ∀ uri, R'.validPostLogoutRedirect snapshot.document.clientId uri = false) ∧
    (∀ clientId ≠ snapshot.document.clientId, ∀ later, snapshot.isFresh later = true →
      (∀ redirectUri responseType method challenge requested resource,
        R'.validatePendingParts P later clientId redirectUri responseType method challenge
            requested resource =
          R.validatePendingParts P later clientId redirectUri responseType method challenge
            requested resource) ∧
      (∀ requested resource, R'.permitsRefresh clientId requested resource =
        R.permitsRefresh clientId requested resource) ∧
      (∀ uri, R'.trustedRedirect P clientId uri = R.trustedRedirect P clientId uri) ∧
      (∀ stored, R'.validateBinding later clientId stored =
        R.validateBinding later clientId stored) ∧
      (∀ uri, R'.validPostLogoutRedirect clientId uri = R.validPostLogoutRedirect clientId uri) ∧
      ∀ origin, R'.validBrowserOrigin clientId origin = R.validBrowserOrigin clientId origin) ∧
    R.containsClient snapshot.document.clientId = false ∧
    ∀ clientId, R.containsClient clientId = true → R'.get clientId = R.get clientId := by
  obtain ⟨client, hprojected⟩ := projectCimd_projected h
  have hself := hprojected.get_self
  refine ⟨fun later redirectUri responseType method challenge requested resource p hp => ?_,
    ⟨fun pending => ?_, ?_, fun origin => ?_, fun uri => ?_⟩,
    fun clientId hne later hfresh => ?_, hprojected.unknown, fun clientId hdeclared => ?_⟩
  · obtain ⟨client', haccepted⟩ := validatePendingParts_accepted hp
    exact hprojected.accepted haccepted
  · simp [preAuthorizes, hprojected.dynamic]
  · simp [allowsIdTokenLogout, hself, hprojected.logoutFlow]
  · simp [validBrowserOrigin, hself, hprojected.browserOrigins]
  · simp [validPostLogoutRedirect, hself, hprojected.postLogoutRedirects]
  · have hsame : SameFor R R' later clientId := hprojected.sameFor hR hfresh hne
    exact ⟨hsame.validatePendingParts, hsame.permitsRefresh, hsame.trustedRedirect,
      hsame.validateBinding, hsame.validPostLogoutRedirect, hsame.validBrowserOrigin⟩
  · refine hprojected.get_other fun e => ?_
    rw [e, hprojected.unknown] at hdeclared
    cases hdeclared

namespace Sample

/-- The crates, on the resource of the grant too. -/
def remotePlatform : Platform :=
  { platform with
    parse := fun raw =>
      if raw = "https://api.example" then
        some { scheme := "https", username := "", password := none
               host := some (.domain "api.example"), path := "/", query := none
               fragment := none, cannotBeABase := false }
      else platform.parse raw }

/-- A document published by another party, under a lease. -/
def snapshot : LeasedClientMetadata :=
  ⟨⟨"https://remote.example/client", "Remote", ["https://app.example/callback"], true⟩, 1000⟩

end Sample

/-- A request of a remote client that asks for more than the policy admits is refused. -/
theorem cimd_projection_refused :
    ∃ R', Sample.registry.projectCimd Sample.remotePlatform 0 Sample.snapshot ["openid"]
        ["https://api.example"] false = .ok R' ∧
      (∀ pending, R'.preAuthorizes pending = false) ∧
      ∀ p, R'.validatePendingParts Sample.remotePlatform 1 "https://remote.example/client"
        "https://app.example/callback" "code" "S256" Sample.grant.codeChallenge
        ["openid", "offline_access"] (some "https://api.example") ≠ .ok p := by
  obtain ⟨R', h⟩ : ∃ R', Sample.registry.projectCimd Sample.remotePlatform 0 Sample.snapshot
      ["openid"] ["https://api.example"] false = .ok R' := by
    have hok : (Sample.registry.projectCimd Sample.remotePlatform 0 Sample.snapshot ["openid"]
        ["https://api.example"] false).isOk = true := by
      decide +kernel
    generalize Sample.registry.projectCimd Sample.remotePlatform 0 Sample.snapshot ["openid"]
      ["https://api.example"] false = out at hok ⊢
    cases out with
    | ok R' => exact ⟨R', rfl⟩
    | error e => cases hok
  obtain ⟨hpolicy, ⟨hconsent, _⟩, _⟩ := cimd_projection Sample.remotePlatform rfl h
  refine ⟨R', h, hconsent, fun p hp => ?_⟩
  obtain ⟨_, hscopes, _⟩ := hpolicy _ _ _ _ _ _ _ _ hp
  exact absurd (hscopes (List.mem_cons_of_mem _ List.mem_cons_self)) (by decide)

end Eri
