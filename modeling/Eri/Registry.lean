/-
  File:      Eri/Registry.lean
  Subject:   Clients, redirects and the validation of authorization requests (src/oauth.rs).

  `BTreeSet` is `Finset`; `inOrder` lists one. A registry resolved for
  a metadata client carries its policy in `dynamic`; every check of such a registry reads the
  monotonic clock, given here as an argument.

  * `ClientRegistry`, `FirstPartyClient`, `RegisteredRedirect` -- declarations; client ids are
    distinct by construction;
  * `PendingAuthorizationGrant` -- a validated request, with its scopes in order;
  * `ValidatedAuthorizationGrant` -- an approved one: a refresh token exactly for
    `offline_access`;
  * `validatePendingParts_ok`, `validateBinding_ok`, `approve_ok` -- what each check that
    passed has established.
-/
import Eri.Cimd
import Eri.Pkce
import Mathlib.Data.Finset.Card
import Mathlib.Data.List.Sort
import Mathlib.Data.String.Basic

namespace Eri

/-! ## 1. Declarations -/

inductive RedirectKind where
  | exact
  | nativeLoopback
  | appClaimedHttps
  deriving DecidableEq

inductive AuthorizationFlow where
  | interactive
  | googlePreauthorized
  deriving DecidableEq

inductive LogoutFlow where
  | interactive
  | idTokenHint
  deriving DecidableEq

structure RegisteredRedirect where
  uri : String
  kind : RedirectKind
  deriving DecidableEq

structure FirstPartyClient where
  id : String
  displayName : String
  redirects : List RegisteredRedirect
  scopes : Finset String
  resources : Finset String
  defaultResource : Option String
  browserOrigins : Finset String
  postLogoutRedirects : Finset String
  authorizationFlow : AuthorizationFlow
  logoutFlow : LogoutFlow
  deriving DecidableEq

structure ResolvedCimdPolicy where
  snapshot : LeasedClientMetadata
  binding : CimdSecurityBinding
  deriving DecidableEq

/-- The clients by id, the implicit userinfo resource, and the policy of a metadata client. -/
structure ClientRegistry where
  clients : List FirstPartyClient
  userinfoResource : Option String
  dynamic : Option ResolvedCimdPolicy
  distinct : (clients.map (·.id)).Nodup

structure AuthorizationRequest where
  clientId : String
  redirectUri : String
  responseType : String
  codeChallengeMethod : String
  codeChallenge : String
  scopes : List String
  resource : Option String

/-- A validated request. -/
structure PendingAuthorizationGrant where
  clientId : String
  redirectUri : String
  scopes : List String
  resource : String
  codeChallenge : String
  dynamic : Option ResolvedCimdPolicy
  sorted : scopes.SortedLT

/-- An approved request. -/
structure ValidatedAuthorizationGrant where
  clientId : String
  redirectUri : String
  scopes : List String
  resource : String
  codeChallenge : String
  issueRefreshToken : Bool
  dynamic : Option ResolvedCimdPolicy
  refresh_iff : issueRefreshToken = true ↔ "offline_access" ∈ scopes

/-! ## 2. Strings and URLs -/

/-- The strings of a `BTreeSet`, as its iterator lists them. -/
def inOrder (l : List String) : List String := l.dedup.insertionSort (· ≤ ·)

theorem inOrder_sorted (l : List String) : (inOrder l).SortedLT := by
  have hnodup : (inOrder l).Nodup := (List.perm_insertionSort (· ≤ ·) _).nodup_iff.mpr l.nodup_dedup
  exact (List.sortedLE_insertionSort).sortedLT_of_nodup hnodup

/-- A sorted list is listed as it is. -/
theorem inOrder_of_sorted {l : List String} (h : l.SortedLT) : inOrder l = l := by
  have hle : l.Pairwise (· ≤ ·) := h.pairwise.imp le_of_lt
  rw [inOrder, h.nodup.dedup, hle.insertionSort_eq]

def validScopeToken (scope : String) : Bool :=
  !scope.isEmpty && (utf8 scope).all fun b =>
    b == 33 || (35 ≤ b && b ≤ 91) || (93 ≤ b && b ≤ 126)

section Urls

variable (P : Platform)

def safeUrl (raw : String) : Option Url :=
  (P.parse raw).filter fun url =>
    !(url.cannotBeABase || url.host.isNone || !url.username.isEmpty || url.password.isSome ||
      url.fragment.isSome)

def safeRedirect (raw : String) : Option Url :=
  (P.parse raw).filter fun url =>
    !(url.scheme.isEmpty || !url.username.isEmpty || url.password.isSome ||
      url.fragment.isSome)

def safeSecurityIdentifier (raw : String) : Bool :=
  match safeUrl P raw with
  | some url => url.scheme == "https" && url.query.isNone
  | none => false

end Urls

/-- `str::strip_prefix`. -/
def stripPrefix (p : String) (s : List Char) : Option (List Char) :=
  if p.toList.isPrefixOf s then some (s.drop p.toList.length) else none

/-- The value of a run of decimal digits. -/
def decimal (digits : List Char) : Nat := digits.foldl (fun n c => n * 10 + (c.toNat - 48)) 0

/-- A port as `u16` and not zero. -/
def validPort (port : List Char) : Bool :=
  !port.isEmpty && port.all Char.isDigit && decide (decimal port ≤ 65535) && decimal port != 0

/-- The host and what follows the authority of a literal loopback URL. -/
def loopbackParts (raw : String) : Option (String × List Char) := do
  let rest ← stripPrefix "http://" raw.toList
  let (authority, suffix) := rest.span fun c => !(c == '/' || c == '?' || c == '#')
  if suffix.head? = some '#' then none
  else
    let (host, port) ← match stripPrefix "[::1]" authority with
      | some port => some ("[::1]", port)
      | none => (stripPrefix "127.0.0.1" authority).map fun port => ("127.0.0.1", port)
    if port = [] then some (host, suffix)
    else
      let port ← stripPrefix ":" port
      if validPort port then some (host, suffix) else none

/-- Unicode `White_Space`, as `str::trim` sees it. -/
def isWhiteSpace (c : Char) : Bool :=
  (9 ≤ c.toNat && c.toNat ≤ 13) || [32, 133, 160, 5760, 8232, 8233, 8239, 8287, 12288].contains
    c.toNat || (8192 ≤ c.toNat && c.toNat ≤ 8202)

/-- A host name other than `localhost`. -/
def isClaimable : Option Host → Bool
  | some (.domain host) => host != "localhost"
  | _ => false

section Redirects

variable (P : Platform)

def redirectMatches (registered : RegisteredRedirect) (actual : String) : Bool :=
  if (safeRedirect P actual).isNone then false
  else if registered.uri = actual then true
  else if registered.kind ≠ .nativeLoopback then false
  else
    match loopbackParts registered.uri, loopbackParts actual with
    | some r, some a => r = a
    | _, _ => false

/-- `RegisteredRedirect::new`. -/
def RegisteredRedirect.new (uri : String) (kind : RedirectKind) :
    Except OAuthError RegisteredRedirect :=
  match safeRedirect P uri with
  | none => .error .invalidClientDeclaration
  | some parsed =>
      if kind = .nativeLoopback ∧ (parsed.scheme ≠ "http" ∨ (loopbackParts uri).isNone) then
        .error .invalidClientDeclaration
      else if kind = .appClaimedHttps ∧ (parsed.scheme ≠ "https" ∨ !isClaimable parsed.host)
      then
        .error .invalidClientDeclaration
      else .ok ⟨uri, kind⟩

variable {P} in
theorem RegisteredRedirect.new_ok {uri : String} {kind : RedirectKind} {r : RegisteredRedirect}
    (h : RegisteredRedirect.new P uri kind = .ok r) : r = ⟨uri, kind⟩ := by
  unfold RegisteredRedirect.new at h
  split at h
  · cases h
  split at h
  · cases h
  split at h
  · cases h
  cases h
  rfl

/-- `FirstPartyClient::with_authorization_flow`. -/
def FirstPartyClient.withAuthorizationFlow (id displayName : String)
    (redirects : List RegisteredRedirect) (scopes resources : Finset String)
    (defaultResource : Option String) (browserOrigins postLogoutRedirects : Finset String)
    (authorizationFlow : AuthorizationFlow) : Except OAuthError FirstPartyClient :=
  if id.isEmpty ∨ displayName.toList.all isWhiteSpace ∨ redirects = [] ∨ scopes = ∅ ∨
      ∃ s ∈ scopes, ¬validScopeToken s then
    .error .invalidClientDeclaration
  else if (∃ r ∈ defaultResource, r ∉ resources) ∨
      (∃ r ∈ resources, ¬safeSecurityIdentifier P r) ∨
      (∃ o ∈ browserOrigins, (safeUrl P o).isNone ∨
        ∃ u ∈ P.parse o, u.path ≠ "/" ∨ u.query.isSome) ∨
      ∃ r ∈ postLogoutRedirects, (safeRedirect P r).isNone then
    .error .invalidClientDeclaration
  else
    .ok { id, displayName, redirects, scopes, resources, defaultResource, browserOrigins,
          postLogoutRedirects, authorizationFlow, logoutFlow := .interactive }

/-- `FirstPartyClient::new`. -/
def FirstPartyClient.new (id displayName : String) (redirects : List RegisteredRedirect)
    (scopes resources : Finset String) (defaultResource : Option String)
    (browserOrigins postLogoutRedirects : Finset String) : Except OAuthError FirstPartyClient :=
  FirstPartyClient.withAuthorizationFlow P id displayName redirects scopes resources
    defaultResource browserOrigins postLogoutRedirects .interactive

variable {P} in
theorem FirstPartyClient.new_ok {id displayName : String} {redirects : List RegisteredRedirect}
    {scopes resources : Finset String} {defaultResource : Option String}
    {browserOrigins postLogoutRedirects : Finset String} {c : FirstPartyClient}
    (h : FirstPartyClient.new P id displayName redirects scopes resources defaultResource
      browserOrigins postLogoutRedirects = .ok c) :
    c = ⟨id, displayName, redirects, scopes, resources, defaultResource, browserOrigins,
      postLogoutRedirects, .interactive, .interactive⟩ := by
  unfold FirstPartyClient.new FirstPartyClient.withAuthorizationFlow at h
  split at h
  · cases h
  split at h
  · cases h
  cases h
  rfl

variable {P} in
theorem FirstPartyClient.new_id {id displayName : String} {redirects : List RegisteredRedirect}
    {scopes resources : Finset String} {defaultResource : Option String}
    {browserOrigins postLogoutRedirects : Finset String} {c : FirstPartyClient}
    (h : FirstPartyClient.new P id displayName redirects scopes resources defaultResource
      browserOrigins postLogoutRedirects = .ok c) : c.id = id := by
  rw [FirstPartyClient.new_ok h]

def FirstPartyClient.withLogoutFlow (c : FirstPartyClient) (flow : LogoutFlow) :
    FirstPartyClient := { c with logoutFlow := flow }

end Redirects

/-! ## 3. Registries -/

namespace ClientRegistry

/-- The client declared under an id. -/
def get (R : ClientRegistry) (clientId : String) : Option FirstPartyClient :=
  R.clients.find? (·.id = clientId)

def build (clients : List FirstPartyClient) (userinfoResource : Option String) :
    Except OAuthError ClientRegistry :=
  if h : (clients.map (·.id)).Nodup then .ok ⟨clients, userinfoResource, none, h⟩
  else .error .invalidClientDeclaration

/-- `ClientRegistry::new`. -/
def new (clients : List FirstPartyClient) : Except OAuthError ClientRegistry :=
  build clients none

def withIssuer (P : Platform) (clients : List FirstPartyClient) (issuer : String) :
    Except OAuthError ClientRegistry :=
  match P.join issuer "userinfo" with
  | some resource => build clients (some resource)
  | none => .error .invalidClientDeclaration

def containsClient (R : ClientRegistry) (clientId : String) : Bool := (R.get clientId).isSome

/-- The metadata policy, when it is the client's. -/
def dynamicFor (R : ClientRegistry) (clientId : String) : Option ResolvedCimdPolicy :=
  R.dynamic.filter fun d => d.snapshot.document.clientId = clientId

theorem containsClient_iff (R : ClientRegistry) (id : String) :
    R.containsClient id = true ↔ id ∈ R.clients.map (·.id) := by
  unfold containsClient get
  rw [List.find?_isSome, List.mem_map]
  simp

/-- `ClientRegistry::project_cimd`. -/
def projectCimd (P : Platform) (R : ClientRegistry) (now : Instant)
    (snapshot : LeasedClientMetadata) (scopes resources : List String) (allowRefresh : Bool) :
    Except OAuthError ClientRegistry := do
  let doc := snapshot.document
  if h : R.containsClient doc.clientId ∨ !snapshot.isFresh now ∨ scopes = [] ∨ resources = []
  then .error .invalidClientDeclaration
  else
    let effectiveRefresh := allowRefresh && doc.refreshAllowed
    let scopes := scopes.filter fun s => effectiveRefresh || s != "offline_access"
    let redirects ← doc.redirectUris.mapM fun uri =>
      RegisteredRedirect.new P uri
        (if "http://".isPrefixOf uri then .nativeLoopback else .exact)
    match hc : FirstPartyClient.new P doc.clientId
        s!"{doc.clientId} · nombre declarado: {doc.clientName}" redirects scopes.toFinset
        resources.toFinset none ∅ ∅ with
    | .error e => .error e
    | .ok client =>
        .ok { clients := R.clients ++ [client]
              userinfoResource := R.userinfoResource
              dynamic := some ⟨snapshot, doc.securityBinding allowRefresh⟩
              distinct := by
                have hno : doc.clientId ∉ R.clients.map (·.id) := fun hin =>
                  h (Or.inl ((R.containsClient_iff doc.clientId).mpr hin))
                rw [List.map_append, List.nodup_append]
                refine ⟨R.distinct, List.nodup_singleton _, fun a ha b hb e => hno ?_⟩
                rw [List.map_singleton, List.mem_singleton] at hb
                exact FirstPartyClient.new_id hc ▸ hb ▸ e ▸ ha }

def ensureFresh (R : ClientRegistry) (now : Instant) : Except OAuthError Unit :=
  if ∃ d ∈ R.dynamic, !d.snapshot.isFresh now then .error .metadataExpired else .ok ()

def validateBinding (R : ClientRegistry) (now : Instant) (clientId : String)
    (stored : Option Json) : Except OAuthError Unit := do
  R.ensureFresh now
  if !R.containsClient clientId then .error .unknownClient
  else
    match R.dynamicFor clientId, stored with
    | none, none => .ok ()
    | some current, some stored =>
        match CimdSecurityBinding.ofJson stored with
        | some binding =>
            if binding = current.binding then .ok () else .error .invalidClientDeclaration
        | none => .error .invalidClientDeclaration
    | _, _ => .error .invalidClientDeclaration

def trustedRedirect (P : Platform) (R : ClientRegistry) (clientId uri : String) : Bool :=
  (R.get clientId).any fun c => c.redirects.any fun r => redirectMatches P r uri

def allowsIdTokenLogout (R : ClientRegistry) (clientId : String) : Bool :=
  (R.get clientId).any fun c => c.logoutFlow = .idTokenHint

def validPostLogoutRedirect (R : ClientRegistry) (clientId uri : String) : Bool :=
  (R.get clientId).any fun c => decide (uri ∈ c.postLogoutRedirects)

def validBrowserOrigin (R : ClientRegistry) (clientId origin : String) : Bool :=
  (R.get clientId).any fun client => decide (origin ∈ client.browserOrigins)

def displayName (R : ClientRegistry) (clientId : String) : Option String :=
  (R.get clientId).map (·.displayName)

def preAuthorizes (R : ClientRegistry) (pending : PendingAuthorizationGrant) : Bool :=
  pending.dynamic.isNone && R.dynamic.isNone && (R.get pending.clientId).any fun client =>
    client.authorizationFlow = .googlePreauthorized &&
    (client.redirects.any fun r =>
      r.kind = .appClaimedHttps && r.uri = pending.redirectUri) &&
    decide (pending.resource ∈ client.resources) &&
    pending.scopes.all fun scope => decide (scope ∈ client.scopes)

/-- The resource is declared by the client, or it is the implicit one of an `openid` grant. -/
def allowsResource (R : ClientRegistry) (client : FirstPartyClient) (requested : Finset String)
    (resource : String) : Bool :=
  decide (resource ∈ client.resources) ||
    (decide ("openid" ∈ requested) && R.userinfoResource == some resource)

def permitsRefresh (R : ClientRegistry) (clientId : String) (scopes : List String)
    (resource : String) : Bool :=
  match R.get clientId with
  | none => false
  | some client =>
      let requested := scopes.toFinset
      if (R.dynamicFor clientId).isSome ∧ resource ∉ client.resources then false
      else
        requested.card == scopes.length && decide (requested ⊆ client.scopes) &&
          R.allowsResource client requested resource

def validatePendingParts (P : Platform) (R : ClientRegistry) (now : Instant)
    (clientId redirectUri responseType method challenge : String) (scopes : List String)
    (resource : Option String) : Except OAuthError PendingAuthorizationGrant := do
  R.ensureFresh now
  if (R.dynamicFor clientId).isSome ∧ resource = none then .error .invalidResource
  else
    match R.get clientId with
    | none => .error .unknownClient
    | some client =>
        if responseType ≠ "code" then .error .unsupportedResponseType
        else if method ≠ "S256" then .error .unsupportedPkceMethod
        else
          validatePkceChallenge challenge
          if !client.redirects.any fun r => redirectMatches P r redirectUri then
            .error .invalidRedirect
          else
            let requested := scopes.toFinset
            if requested.card ≠ scopes.length ∨ requested = ∅ ∨
                (∃ s ∈ requested, ¬validScopeToken s) ∨ ¬requested ⊆ client.scopes then
              .error .invalidScope
            else
              match (resource.or client.defaultResource).or
                  (if "openid" ∈ requested then R.userinfoResource else none) with
              | none => .error .invalidResource
              | some resource =>
                  if (R.dynamicFor clientId).isSome ∧ resource ∉ client.resources then
                    .error .invalidResource
                  else if !R.allowsResource client requested resource then
                    .error .invalidResource
                  else
                    .ok { clientId := client.id
                          redirectUri
                          scopes := inOrder scopes
                          resource
                          codeChallenge := challenge
                          dynamic := R.dynamicFor clientId
                          sorted := inOrder_sorted scopes }

def validatePending (P : Platform) (R : ClientRegistry) (now : Instant)
    (r : AuthorizationRequest) : Except OAuthError PendingAuthorizationGrant :=
  R.validatePendingParts P now r.clientId r.redirectUri r.responseType r.codeChallengeMethod
    r.codeChallenge r.scopes r.resource

def revalidatePending (P : Platform) (R : ClientRegistry) (now : Instant)
    (p : PendingAuthorizationGrant) : Except OAuthError PendingAuthorizationGrant :=
  R.validatePendingParts P now p.clientId p.redirectUri "code" "S256" p.codeChallenge p.scopes
    (some p.resource)

/-! What a check that passed has established. -/

theorem get_id {R : ClientRegistry} {id : String} {client : FirstPartyClient}
    (h : R.get id = some client) : client.id = id := of_decide_eq_true (List.find?_some h :)

/-- **What an accepted request has shown**, and the grant it is. -/
structure Accepted (P : Platform) (R : ClientRegistry) (now : Instant)
    (clientId redirectUri challenge : String) (scopes : List String) (resource : Option String)
    (p : PendingAuthorizationGrant) (client : FirstPartyClient) : Prop where
  fresh : R.ensureFresh now = .ok ()
  known : R.get clientId = some client
  redirect : ∃ r ∈ client.redirects, redirectMatches P r redirectUri = true
  declared : scopes.toFinset ⊆ client.scopes
  /-- A metadata client names its resource, and it is one of its own. -/
  named : (R.dynamicFor clientId).isSome = true → ∃ r ∈ client.resources, resource = some r
  allowed : R.allowsResource client scopes.toFinset p.resource = true
  sameClient : p.clientId = clientId
  sameRedirect : p.redirectUri = redirectUri
  ordered : p.scopes = inOrder scopes
  sameChallenge : p.codeChallenge = challenge
  policy : p.dynamic = R.dynamicFor clientId
  sameResource : ∀ r ∈ resource, p.resource = r

theorem validatePendingParts_accepted {P : Platform} {R : ClientRegistry} {now : Instant}
    {clientId redirectUri responseType method challenge : String} {scopes : List String}
    {resource : Option String} {p : PendingAuthorizationGrant}
    (h : R.validatePendingParts P now clientId redirectUri responseType method challenge scopes
      resource = .ok p) :
    ∃ client, Accepted P R now clientId redirectUri challenge scopes resource p client := by
  unfold validatePendingParts at h
  simp only [bind, Except.bind] at h
  split at h
  · cases h
  rename_i hfresh
  split at h
  · cases h
  rename_i hnamed
  split at h
  · cases h
  rename_i client hclient
  split at h
  · cases h
  split at h
  · cases h
  split at h
  · cases h
  split at h
  · cases h
  rename_i hredirect
  split at h
  · cases h
  rename_i hscopes
  split at h
  · cases h
  rename_i resource' hresource
  split at h
  · cases h
  rename_i hown
  split at h
  · cases h
  rename_i hallowed
  cases h
  have hsame : ∀ r ∈ resource, resource' = r := fun r hr => by
    rw [Option.mem_def.mp hr] at hresource
    exact (Option.some.inj hresource).symm
  refine ⟨client, hfresh, hclient, ?_, ?_, fun hdynamic => ?_, ?_, get_id hclient, rfl, rfl,
    rfl, rfl, hsame⟩
  · simpa using hredirect
  · by_contra hno
    exact hscopes (Or.inr (Or.inr (Or.inr hno)))
  · cases hname : resource with
    | none => exact absurd ⟨hdynamic, hname⟩ hnamed
    | some r =>
        refine ⟨r, ?_, rfl⟩
        by_contra hno
        exact hown ⟨hdynamic, hsame r hname ▸ hno⟩
  · simpa using hallowed

/-- **What a validated request is.** -/
theorem validatePendingParts_ok {P : Platform} {R : ClientRegistry} {now : Instant}
    {clientId redirectUri responseType method challenge : String} {scopes : List String}
    {resource : Option String} {p : PendingAuthorizationGrant}
    (h : R.validatePendingParts P now clientId redirectUri responseType method challenge scopes
      resource = .ok p) :
    p.clientId = clientId ∧ p.redirectUri = redirectUri ∧ p.scopes = inOrder scopes ∧
      p.codeChallenge = challenge ∧ p.dynamic = R.dynamicFor clientId ∧
      ∀ r ∈ resource, p.resource = r := by
  obtain ⟨client, haccepted⟩ := validatePendingParts_accepted h
  exact ⟨haccepted.sameClient, haccepted.sameRedirect, haccepted.ordered,
    haccepted.sameChallenge, haccepted.policy, haccepted.sameResource⟩

/-- **A stored binding that passes is the binding of the current policy.** -/
theorem validateBinding_ok {R : ClientRegistry} {now : Instant} {clientId : String}
    {stored : Option Json} (h : R.validateBinding now clientId stored = .ok ())
    (hstored : ∀ j, stored = some j → ∃ b : CimdSecurityBinding, j = b.toJson) :
    stored = (R.dynamicFor clientId).map fun d => d.binding.toJson := by
  unfold validateBinding at h
  simp only [bind, Except.bind] at h
  split at h
  · cases h
  split at h
  · cases h
  split at h
  · rename_i hdynamic
    rw [hdynamic]
    rfl
  · rename_i current j hdynamic
    rw [hdynamic]
    obtain ⟨b, rfl⟩ := hstored j rfl
    rw [CimdSecurityBinding.ofJson_toJson] at h
    dsimp only at h
    split at h
    · rename_i e
      rw [e]
      rfl
    · cases h
  · cases h

end ClientRegistry

/-! ## 4. Grants -/

/-- The lease of a metadata policy at an instant. -/
def freshPolicy (dynamic : Option ResolvedCimdPolicy) (now : Instant) : Except OAuthError Unit :=
  if ∃ d ∈ dynamic, !d.snapshot.isFresh now then .error .metadataExpired else .ok ()

namespace PendingAuthorizationGrant

/-- `cimd_binding_json`. -/
def cimdBindingJson (p : PendingAuthorizationGrant) : Option Json :=
  p.dynamic.map fun d => d.binding.toJson

def ensureFresh (p : PendingAuthorizationGrant) (now : Instant) : Except OAuthError Unit :=
  freshPolicy p.dynamic now

def approve (p : PendingAuthorizationGrant) (now : Instant) (consent : Bool) :
    Except OAuthError ValidatedAuthorizationGrant := do
  p.ensureFresh now
  let refresh := p.scopes.any (· == "offline_access")
  if refresh ∧ ¬consent then .error .consentRequired
  else
    .ok { clientId := p.clientId
          redirectUri := p.redirectUri
          scopes := p.scopes
          resource := p.resource
          codeChallenge := p.codeChallenge
          issueRefreshToken := refresh
          dynamic := p.dynamic
          refresh_iff := by simp [refresh] }

/-- **An approved request is the request**, with a refresh token for `offline_access`. -/
theorem approve_ok {p : PendingAuthorizationGrant} {now : Instant} {consent : Bool}
    {g : ValidatedAuthorizationGrant} (h : p.approve now consent = .ok g) :
    g.clientId = p.clientId ∧ g.redirectUri = p.redirectUri ∧ g.scopes = p.scopes ∧
      g.resource = p.resource ∧ g.codeChallenge = p.codeChallenge ∧ g.dynamic = p.dynamic := by
  unfold approve at h
  simp only [bind, Except.bind] at h
  split at h
  · cases h
  split at h
  · cases h
  cases h
  exact ⟨rfl, rfl, rfl, rfl, rfl, rfl⟩

end PendingAuthorizationGrant

namespace ValidatedAuthorizationGrant

def cimdBindingJson (g : ValidatedAuthorizationGrant) : Option Json :=
  g.dynamic.map fun d => d.binding.toJson

def ensureFresh (g : ValidatedAuthorizationGrant) (now : Instant) : Except OAuthError Unit :=
  freshPolicy g.dynamic now

end ValidatedAuthorizationGrant

end Eri
