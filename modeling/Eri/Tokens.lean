/-
  File:      Eri/Tokens.lean
  Subject:   The tokens of a grant (src/tokens.rs) and the userinfo endpoint that reads them back
             (src/web.rs, bearer and userinfo).

  A grant becomes an access token, and an ID token when it is an `openid` grant that a code was
  exchanged for. Both are signed with the same key; only their types tell them apart.

  * `issue`, `userinfo` -- the builder and the reader;
  * `split_join` -- the scopes of a grant survive the `scope` claim;
  * `userinfo_iff` -- what the endpoint answers to the access token of a grant;
  * `token_classes` -- **no token passes for the other kind, and scopes decide what is shown**.
-/
import Eri.Keys
import Eri.Policy
import Eri.Web
import Mathlib.Data.List.DropRight

namespace Eri

open Web (HeaderMap getAll toStr origin one pairsBytes Provider)

/-! ## 1. Issuing -/

/-- `tokens::TokenResponse`. -/
structure TokenResponse where
  accessToken : String
  tokenType : String
  expiresIn : Nat
  scope : String
  refreshToken : Option String
  idToken : Option String

/-- `Provider::userinfo`. -/
def Web.Provider.userinfo (p : Provider) : String := p.issuer ++ "/userinfo"

/-- `str::trim_end_matches('/')`. -/
def trimSlashes (s : String) : String := String.ofList (s.toList.rdropWhile (· == '/'))

/-- The audiences of an access token: the resource, and the userinfo endpoint for `openid`. -/
def audiences (x : ExchangeResult) (userinfo : String) : List String :=
  if x.scopes.any (· == "openid") ∧ ¬[x.resource].any (· == userinfo) then [x.resource, userinfo]
  else [x.resource]

/-- `join(" ")`. -/
def joinScopes (scopes : List String) : String := " ".intercalate scopes

section Issue

variable (K : KeyCrates)

/-- The claims of an access token, issued at `now`. -/
def AccessClaims.issued (issuer userinfo : String) (x : ExchangeResult) (now : Nat) (jti : Uuid) :
    AccessClaims where
  iss := issuer
  sub := x.userId
  aud := audiences x userinfo
  exp := now + 300
  iat := now
  jti := K.uuidText jti
  clientId := x.clientId
  scope := joinScopes x.scopes

def IdTokenClaims.issued (issuer : String) (x : ExchangeResult) (now : Nat) : IdTokenClaims where
  sid := some x.sessionId
  iss := issuer
  sub := x.userId
  aud := x.clientId
  exp := now + 300
  iat := now
  nonce := x.oidcNonce
  authTime := x.upstreamAuthTime.map timestamp

variable {K}

/-- The ID token of `issue`: for a first exchange, and for `openid`. -/
def issueId (keys : SigningKeys K) (issuer : String) (x : ExchangeResult) (initial : Bool)
    (now : Nat) : Except KeyError (Option String) :=
  if initial && x.scopes.any (· == "openid") then
    (signId keys ((IdTokenClaims.issued issuer x now).toJson K)).map some
  else .ok none

def issue (keys : SigningKeys K) (issuer userinfo : String) (x : ExchangeResult) (initial : Bool)
    (now : Nat) (jti : Uuid) : Except KeyError TokenResponse := do
  let accessToken ← sign keys ((AccessClaims.issued K issuer userinfo x now jti).toJson K)
  let idToken ← issueId keys issuer x initial now
  return ⟨accessToken, "Bearer", 300, joinScopes x.scopes, x.refreshToken, idToken⟩

end Issue

/-! ## 2. The userinfo endpoint -/

/-- `web::valid_scope`. -/
def validScope (scope : String) : Bool :=
  !scope.isEmpty && (utf8 scope).all fun b =>
    b == 33 || (35 ≤ b && b ≤ 91) || (93 ≤ b && b ≤ 126)

/-- `str::split(' ')`. -/
def splitScopes (scope : String) : List String := (scope.toList.splitOn ' ').map String.ofList

/-- `bearer`: the token of the header or of the form, but not of both. -/
def bearer (h : HeaderMap) (form : List (String × String)) : Option String :=
  let fromHeader := (((getAll h "authorization").head?.bind toStr).bind (stripPrefix "Bearer ")).map
    String.ofList
  match fromHeader, one form "access_token" with
  | some token, none | none, some token => some token
  | _, _ => none

/-- The token that a request presents. -/
def bearerToken (C : HttpCrates) (h : HeaderMap) (body : List UInt8) : Option String :=
  if body.isEmpty then bearer h [] else (pairsBytes C body 4096).bind (bearer h)

/-- A member that is written when there is a value. -/
def shown (name : String) (value : Option String) : List (String × Json) :=
  (value.map fun v => (name, Json.str v)).toList

section Userinfo

variable (K : KeyCrates)

def profileMembers (profile : UserProfile) : List (String × Json) :=
  shown "name" profile.name ++ shown "given_name" profile.givenName ++
    shown "family_name" profile.familyName ++ shown "picture" profile.picture

def emailMembers (profile : UserProfile) : List (String × Json) :=
  shown "email" profile.verifiedEmail ++
    if profile.verifiedEmail.isSome then [("email_verified", .bool true)] else []

/-- What is shown of a user for some scopes. -/
def disclosed (user : Uuid) (scopes : List String) (profile : UserProfile) :
    List (String × Json) :=
  ("sub", .str (K.uuidText user)) ::
    ((if scopes.contains "profile" then profileMembers profile else []) ++
      if scopes.contains "email" then emailMembers profile else [])

variable {K}

/-- The checks of `userinfo` on verified claims, at `now`. -/
def AccessClaims.readable (c : AccessClaims) (now : Nat) : Bool :=
  !(decide (c.exp ≤ now - clockSkewSeconds) || decide (c.iat > now + clockSkewSeconds) ||
    c.jti.isEmpty || c.clientId.isEmpty) &&
  !(!(splitScopes c.scope).contains "openid" || (splitScopes c.scope).isEmpty ||
    (splitScopes c.scope).any fun scope => !validScope scope)

/-- `userinfo`, which verifies at `now` and checks at `later`; the answer is the members of an
    object, or none when the token is refused. -/
def userinfo (C : HttpCrates) (keys : SigningKeys K) (p : Provider)
    (profileOf : Uuid → Option UserProfile) (now later : Nat) (h : HeaderMap)
    (body : List UInt8) : Option (List (String × Json)) := do
  let token ← bearerToken C h body
  let claims ← (verify keys (AccessClaims.ofJson K) token p.issuer p.userinfo now).toOption
  if !claims.readable later then none
  else if (origin h).any fun o => !p.registry.validBrowserOrigin claims.clientId o then none
  else do
    let profile ← profileOf claims.sub
    return disclosed K claims.sub (splitScopes claims.scope) profile

end Userinfo

/-! ## 3. Scopes as text -/

/-- A scope token has no space, so spaces separate tokens. -/
theorem space_notMem {s : String} (h : validScopeToken s = true) : ' ' ∉ s.toList := by
  intro hspace
  have hbyte : (32 : UInt8) ∈ utf8 s := by
    rw [utf8_eq_flatMap]
    exact List.mem_flatMap.mpr ⟨' ', hspace, by decide⟩
  rw [validScopeToken, Bool.and_eq_true, List.all_eq_true] at h
  exact absurd (h.2 32 hbyte) (by decide)

/-- **The scopes of a grant come back from the claim** they were joined in. -/
theorem split_join {scopes : List String} (hne : scopes ≠ [])
    (htokens : ∀ s ∈ scopes, validScopeToken s = true) :
    splitScopes (joinScopes scopes) = scopes := by
  have hsplit : (joinScopes scopes).toList.splitOn ' ' = scopes.map String.toList := by
    rw [joinScopes, String.toList_intercalate]
    refine List.splitOn_intercalate ' ' (fun l hl => ?_) (by simpa using hne)
    obtain ⟨s, hs, rfl⟩ := List.mem_map.mp hl
    exact space_notMem (htokens s hs)
  rw [splitScopes, hsplit, List.map_map]
  exact (List.map_congr_left fun s _ => String.ofList_toList).trans (List.map_id _)

/-! ## 4. Grants that are returned -/

/-- **A result of the store**, for a client and a resource of the policy, with scope tokens each
    granted once. -/
structure Returnable (R : ClientRegistry) (x : ExchangeResult) : Prop where
  accepted : ∃ client, R.get x.clientId = some client ∧
    R.allowsResource client x.scopes.toFinset x.resource = true
  nonempty : x.scopes ≠ []
  distinct : x.scopes.Nodup
  tokens : ∀ s ∈ x.scopes, validScopeToken s = true

/-- The grant of an accepted request is one. -/
theorem returnable_of_accepted {P : Platform} {R : ClientRegistry} {now : Instant}
    {clientId redirectUri responseType method challenge : String} {scopes : List String}
    {resource : Option String} {g : PendingAuthorizationGrant} {x : ExchangeResult}
    (h : R.validatePendingParts P now clientId redirectUri responseType method challenge scopes
      resource = .ok g) (hclient : x.clientId = g.clientId) (hscopes : x.scopes = g.scopes)
    (hresource : x.resource = g.resource) : Returnable R x := by
  obtain ⟨-, -, client, chosen, hadmits, rfl⟩ := validatePendingParts_iff.mp h
  have hmem : ∀ s, s ∈ x.scopes ↔ s ∈ scopes := fun s => by simp [hscopes, grantOf, inOrder]
  have hset : x.scopes.toFinset = scopes.toFinset := by
    ext s
    simp [hmem]
  have hid : x.clientId = clientId := hclient.trans (ClientRegistry.get_id hadmits.known)
  exact {
    accepted := ⟨client, hid ▸ hadmits.known, by rw [hset, hresource]; exact hadmits.allowed⟩
    nonempty := by
      obtain ⟨s, hs⟩ := hadmits.nonempty
      exact List.ne_nil_of_mem ((hmem s).mpr (List.mem_toFinset.mp hs))
    distinct := hscopes ▸ (inOrder_sorted scopes).nodup
    tokens := fun s hs => hadmits.tokens s (List.mem_toFinset.mpr ((hmem s).mp hs)) }

theorem Returnable.named {P : Platform} {R : ClientRegistry} (hR : R.Built P) {x : ExchangeResult}
    (h : Returnable R x) : x.clientId ≠ "" := by
  obtain ⟨client, hclient, -⟩ := h.accepted
  rw [← ClientRegistry.get_id hclient]
  exact (hR.clients client (List.mem_of_find?_eq_some hclient)).named

/-- The audiences are distinct, and the endpoint is one of them for `openid` or when it is the
    resource itself. -/
theorem audiences_nodup (x : ExchangeResult) (userinfo : String) :
    (audiences x userinfo).Nodup := by
  unfold audiences
  split
  · rename_i h
    have : x.resource ≠ userinfo := by simpa using h.2
    simpa using this
  · exact List.nodup_singleton _

theorem mem_audiences {x : ExchangeResult} {userinfo a : String} :
    a ∈ audiences x userinfo ↔ a = x.resource ∨ "openid" ∈ x.scopes ∧ a = userinfo := by
  unfold audiences
  by_cases hopenid : "openid" ∈ x.scopes
  · by_cases hsame : x.resource = userinfo
    · simp [hopenid, hsame]
    · simp [hopenid, hsame]
  · simp [hopenid]

/-! ## 5. Types of tokens -/

section Types

variable {K : KeyCrates} {keys keys' : SigningKeys K}

/-- Only a token of its type verifies as an access token, under any key set. -/
theorem verify_typ (hK : K.Lawful) {claims : Json} {typ token issuer audience : String}
    {T : Type} {read : Json → Option T} {now : Nat} {c : T}
    (h : signTyped keys claims typ = .ok token)
    (hv : verify keys' read token issuer audience now = .ok c) : typ = "at+jwt" := by
  obtain ⟨key, hkey, -⟩ := bind_ok hv
  exact ((headerKey_ok hK h).mp hkey).1

/-- And as a logout hint. -/
theorem verifyIdLogout_typ (hK : K.Lawful) {claims : Json} {typ token issuer : String} {now : Nat}
    {c : IdTokenClaims} (h : signTyped keys claims typ = .ok token)
    (hv : verifyIdLogout keys' token issuer now = .ok c) : typ = "JWT" := by
  obtain ⟨key, hkey, -⟩ := bind_ok hv
  exact ((headerKey_ok hK h).mp hkey).1

/-- A key set verifies with the key it signs with. -/
theorem own_key (hK : K.Lawful) {files : KeyFiles} (h : load K files = .ok keys) :
    keys.decoding.lookup keys.activeKid = some (K.toPublicKey keys.encoding) := by
  obtain ⟨m, -, hshows⟩ := load_shows hK h
  refine hshows.lookup.mpr ⟨⟨m.active.kid, m.active.publicKey⟩, List.mem_cons_self .., ?_,
    hshows.active⟩
  exact hshows.activeKid.symm

/-- The registered claims of an ID token, with or without a session. -/
theorem IdTokenClaims.registered (K : KeyCrates) (c : IdTokenClaims) :
    Json.member (c.members K) "exp" = some (.num c.exp) ∧
      Json.member (c.members K) "sub" = some (.str (K.uuidText c.sub)) ∧
      Json.member (c.members K) "iss" = some (.str c.iss) ∧
      Json.member (c.members K) "aud" = some (.str c.aud) := by
  obtain ⟨⟨sid, sub, aud, exp, iat⟩, iss, nonce, authTime⟩ := c
  cases sid with
  | none => exact ⟨rfl, rfl, rfl, rfl⟩
  | some sid => exact ⟨rfl, rfl, rfl, rfl⟩

theorem accepts_hint (K : KeyCrates) {c : IdTokenClaims} {n : Nat} (hexp : c.exp = n) (now : Nat) :
    (hintValidation c.iss).Accepts now (c.members K) := by
  obtain ⟨hmemberExp, hsub, hiss, haud⟩ := c.registered K
  refine ⟨fun name hname => ?_, fun h => (by cases h), fun allowed hallowed iss h => ?_,
    fun h => (by cases h)⟩
  · simp only [hintValidation, List.mem_cons, List.not_mem_nil, or_false] at hname
    obtain rfl | rfl | rfl | rfl | rfl := hname
    · simp only [Json.Claims, hmemberExp, Option.bind_some, seconds_num.mpr hexp,
        Option.isSome_some]
    · rfl
    · simp only [Json.Claims, hsub, Option.bind_some, Json.asText, Option.isSome_some]
    · simp only [Json.Claims, hiss, Option.bind_some, Json.strings, Option.isSome_some]
    · simp only [Json.Claims, haud, Option.bind_some, Json.strings, Option.isSome_some]
  · rw [hiss] at h
    cases hallowed
    cases h
    exact ⟨c.iss, List.mem_singleton_self _, List.mem_singleton_self _⟩

/-- **A logout hint verifies** for its issuer, unless it was issued later. -/
theorem verifyIdLogout_own (hK : K.Lawful) {files : KeyFiles} (h : load K files = .ok keys)
    {c : IdTokenClaims} {token : String} (htoken : signId keys (c.toJson K) = .ok token)
    (haud : c.aud ≠ "") {n : Nat} (hexp : c.exp = n) (horder : c.iat < c.exp) {now : Nat}
    (hnow : c.iat ≤ now + clockSkewSeconds) :
    verifyIdLogout keys token c.iss now = .ok c := by
  have hdecode := (hK.decode _ _ _ _ (orError_ok.mp htoken) _ _ now _).mpr
    ⟨rfl, List.mem_singleton_self _, accepts_hint K hexp now, rfl⟩
  have hread : IdTokenClaims.ofJson K (.obj (c.members K)) = some c :=
    IdTokenClaims.ofJson_toJson hK c
  rw [verifyIdLogout, (headerKey_ok hK htoken).mpr ⟨rfl, own_key hK h⟩]
  simp only [bind, Except.bind, hdecode, orError, hread]
  rw [if_neg]
  · rfl
  · simp only [not_or, not_le, not_lt, gt_iff_lt]
    exact ⟨by simpa using haud, horder, hnow⟩

end Types

/-! ## 6. What the endpoint answers -/

section Userinfo

variable {K : KeyCrates} {keys : SigningKeys K} {R : ClientRegistry} {x : ExchangeResult}

/-- What the endpoint asks of verified claims. -/
theorem readable_iff {c : AccessClaims} {now : Nat} :
    c.readable now = true ↔ (now < c.exp + 30 ∧ c.iat ≤ now + 30 ∧ c.jti ≠ "" ∧ c.clientId ≠ "") ∧
      "openid" ∈ splitScopes c.scope ∧ ∀ s ∈ splitScopes c.scope, validScope s = true := by
  have hskew : clockSkewSeconds = 30 := rfl
  have htime : ¬c.exp ≤ now - 30 ↔ now < c.exp + 30 := by omega
  have hempty : "openid" ∈ splitScopes c.scope → (splitScopes c.scope).isEmpty = false :=
    fun h => by simp [List.ne_nil_of_mem h]
  simp only [AccessClaims.readable, hskew, Bool.and_eq_true, Bool.not_eq_true',
    Bool.or_eq_false_iff, decide_eq_false_iff_not, htime, String.isEmpty_eq_false_iff,
    List.any_eq_false, List.contains_iff_mem, Bool.not_eq_false', not_lt, gt_iff_lt,
    Bool.not_eq_false]
  tauto

/-- The endpoint reads the claims of a grant exactly for `openid`, in their time. -/
theorem readable_issued (hK : K.Lawful) (hx : Returnable R x) (hnamed : x.clientId ≠ "")
    {issuer userinfo : String} {now later : Nat} {jti : Uuid} :
    (AccessClaims.issued K issuer userinfo x now jti).readable later = true ↔
      "openid" ∈ x.scopes ∧ now ≤ later + 30 ∧ later < now + 330 := by
  have hscopes : splitScopes (AccessClaims.issued K issuer userinfo x now jti).scope = x.scopes :=
    split_join hx.nonempty hx.tokens
  have hexp : (AccessClaims.issued K issuer userinfo x now jti).exp = now + 300 := rfl
  have hiat : (AccessClaims.issued K issuer userinfo x now jti).iat = now := rfl
  rw [readable_iff, hscopes, hexp, hiat]
  constructor
  · rintro ⟨⟨hlater, hearlier, -, -⟩, hopenid, -⟩
    exact ⟨hopenid, by omega, by omega⟩
  · rintro ⟨hopenid, hearlier, hlater⟩
    exact ⟨⟨by omega, by omega, hK.uuidText jti, hnamed⟩, hopenid, hx.tokens⟩

/-- The endpoint, check by check. -/
theorem userinfo_some {C : HttpCrates} {p : Provider} {profileOf : Uuid → Option UserProfile}
    {now later : Nat} {h : HeaderMap} {body : List UInt8} {ms : List (String × Json)} :
    userinfo C keys p profileOf now later h body = some ms ↔
      ∃ token c profile, bearerToken C h body = some token ∧
        verify keys (AccessClaims.ofJson K) token p.issuer p.userinfo now = .ok c ∧
        c.readable later = true ∧
        (∀ o, origin h = some o → p.registry.validBrowserOrigin c.clientId o = true) ∧
        profileOf c.sub = some profile ∧
        disclosed K c.sub (splitScopes c.scope) profile = ms := by
  simp only [userinfo, Option.bind_eq_bind, Option.bind_eq_some_iff]
  constructor
  · rintro ⟨token, htoken, c, hc, h⟩
    split at h
    · cases h
    split at h
    · cases h
    rename_i hread horigin
    obtain ⟨profile, hprofile, h⟩ := Option.bind_eq_some_iff.mp h
    refine ⟨token, c, profile, htoken, ?_, by simpa using hread, fun o ho => ?_, hprofile,
      Option.some.inj h⟩
    · cases hv : verify keys (AccessClaims.ofJson K) token p.issuer p.userinfo now with
      | ok c' =>
          rw [hv] at hc
          exact congrArg _ (Option.some.inj hc)
      | error e =>
          rw [hv] at hc
          cases hc
    · by_contra hno
      exact horigin (by simp [ho, hno])
  · rintro ⟨token, c, profile, htoken, hverify, hread, horigin, hprofile, rfl⟩
    refine ⟨token, htoken, c, by rw [hverify]; rfl, ?_⟩
    have hallowed :
        ¬(origin h).any (fun o => !p.registry.validBrowserOrigin c.clientId o) = true := by
      cases ho : origin h with
      | none => simp
      | some o => simp [horigin o ho]
    rw [if_neg (by simp [hread]), if_neg hallowed, hprofile]
    rfl

/-- **What the endpoint answers to the access token of a grant.** -/
theorem userinfo_iff (C : HttpCrates) (hK : K.Lawful) {files : KeyFiles}
    (hkeys : load K files = .ok keys) (hx : Returnable R x) (hnamed : x.clientId ≠ "")
    {p : Provider} {now : Nat} {jti : Uuid} {token : String}
    (h : sign keys ((AccessClaims.issued K p.issuer p.userinfo x now jti).toJson K) = .ok token)
    {headers : HeaderMap} {body : List UInt8} (htoken : bearerToken C headers body = some token)
    (horigin : origin headers = none) (profileOf : Uuid → Option UserProfile) (t t' : Nat)
    (ms : List (String × Json)) :
    userinfo C keys p profileOf t t' headers body = some ms ↔
      "openid" ∈ x.scopes ∧ t ≤ now + 330 ∧ now ≤ t' + 30 ∧ t' < now + 330 ∧
        ∃ profile, profileOf x.userId = some profile ∧
          disclosed K x.userId x.scopes profile = ms := by
  have hscopes :
      splitScopes (AccessClaims.issued K p.issuer p.userinfo x now jti).scope = x.scopes :=
    split_join hx.nonempty hx.tokens
  have hlive : (AccessClaims.issued K p.issuer p.userinfo x now jti).Live t ↔ t ≤ now + 330 := by
    constructor
    · rintro ⟨n, hn, hle⟩
      have hn : (now : Int) + 300 = n := hn
      have hle : t ≤ n + 30 := hle
      omega
    · intro hle
      exact ⟨now + 300, rfl, hle⟩
  rw [userinfo_some]
  constructor
  · rintro ⟨token', c, profile, htoken', hverify, hread, -, hprofile, rfl⟩
    obtain rfl := Option.some.inj (htoken.symm.trans htoken')
    obtain ⟨-, -, -, -, ht, rfl⟩ := (verify_iff hK h).mp hverify
    obtain ⟨hopenid, hiat, hexp⟩ := (readable_issued hK hx hnamed).mp hread
    exact ⟨hopenid, hlive.mp ht, hiat, hexp, profile, hprofile, by rw [hscopes]; rfl⟩
  · rintro ⟨hopenid, ht, hiat, hexp, profile, hprofile, rfl⟩
    have hread : (AccessClaims.issued K p.issuer p.userinfo x now jti).readable t' = true :=
      (readable_issued hK hx hnamed).mpr ⟨hopenid, hiat, hexp⟩
    refine ⟨token, _, profile, htoken, (verify_iff hK h).mpr ⟨rfl, own_key hK hkeys, rfl, ?_,
      hlive.mpr ht, rfl⟩, hread, ?_, hprofile, ?_⟩
    · exact mem_audiences.mpr (Or.inr ⟨hopenid, rfl⟩)
    · simp [horigin]
    · rw [hscopes]
      rfl

end Userinfo

/-- Each member of a profile is shown for its own scope only. -/
theorem mem_disclosed {K : KeyCrates} {user : Uuid} {scopes : List String} {profile : UserProfile}
    {m : String × Json} (h : m ∈ disclosed K user scopes profile) :
    m = ("sub", .str (K.uuidText user)) ∨ ("profile" ∈ scopes ∧ m ∈ profileMembers profile) ∨
      ("email" ∈ scopes ∧ m ∈ emailMembers profile) := by
  rw [disclosed, List.mem_cons, List.mem_append] at h
  obtain rfl | h | h := h
  · exact Or.inl rfl
  · by_cases hscope : "profile" ∈ scopes
    · exact Or.inr (Or.inl ⟨hscope, by simpa [hscope] using h⟩)
    · simp [hscope] at h
  · by_cases hscope : "email" ∈ scopes
    · exact Or.inr (Or.inr ⟨hscope, by simpa [hscope] using h⟩)
    · simp [hscope] at h

/-! ## 7. One address, built twice -/

/-- The text of an issuer without a path: an origin and a slash, which a joined name follows. -/
def Platform.Rooted (P : Platform) (issuer : String) : Prop :=
  ∃ base : String, issuer = base ++ "/" ∧ base.toList.getLast? ≠ some '/' ∧
    P.join issuer "userinfo" = some (base ++ "/userinfo")

/-- **What the code relies on** in `url`: how a URL without a path is written. -/
def Platform.WritesRoots (P : Platform) (issuer : String) : Prop :=
  ∀ url, P.parse issuer = some url → url.host.isSome = true → url.path = "/" → url.query = none →
    url.fragment = none → P.Rooted issuer

theorem validateIssuer_ok {mode : Mode} {url : Url} (h : validateIssuer mode url = .ok ()) :
    url.host.isSome = true ∧ url.path = "/" ∧ url.query = none ∧ url.fragment = none := by
  obtain ⟨hbase, h⟩ := ite_ok h
  obtain ⟨hparts, h⟩ := ite_ok h
  obtain ⟨hpath, -⟩ := ite_ok h
  simp only [not_or, not_not, Bool.not_eq_true, Option.isSome_eq_false_iff,
    Option.isNone_iff_eq_none] at hbase hparts hpath
  exact ⟨Option.isSome_iff_ne_none.mpr hbase.2, hpath, hparts.2.2.1, hparts.2.2.2⟩

theorem trimSlashes_root {base : String} (h : base.toList.getLast? ≠ some '/') :
    trimSlashes (base ++ "/") = base := by
  have hslash : (base ++ "/").toList = base.toList ++ ['/'] := String.toList_append
  have hself : base.toList.rdropWhile (· == '/') = base.toList := by
    refine List.rdropWhile_eq_self_iff.mpr fun hne hlast => h ?_
    rw [List.getLast?_eq_some_getLast hne, beq_iff_eq.mp hlast]
  rw [trimSlashes, hslash, List.rdropWhile_concat_pos _ _ _ (by decide), hself,
    String.ofList_toList]

/-- The implicit resource of the policy is the endpoint that tokens are issued for. -/
theorem userinfo_agrees {P : Platform} {mode : Mode} {url : Url} {issuer : String}
    {clients : List FirstPartyClient} {R : ClientRegistry} {p : Provider}
    (hurl : P.parse issuer = some url) (hvalid : validateIssuer mode url = .ok ())
    (hroot : P.WritesRoots issuer) (hR : ClientRegistry.withIssuer P clients issuer = .ok R)
    (hp : p.issuer = trimSlashes issuer) : R.userinfoResource = some p.userinfo := by
  obtain ⟨hhost, hpath, hquery, hfragment⟩ := validateIssuer_ok hvalid
  obtain ⟨base, rfl, hbase, hjoin⟩ := hroot url hurl hhost hpath hquery hfragment
  rw [ClientRegistry.withIssuer, hjoin] at hR
  simp only [ClientRegistry.build] at hR
  split at hR
  · cases hR
    rw [Web.Provider.userinfo, hp, trimSlashes_root hbase]
  · cases hR

/-! ## 8. Token classes -/

/-- An ID token is issued for a first exchange of an `openid` grant. -/
theorem issueId_ok {K : KeyCrates} {keys : SigningKeys K} {issuer : String} {x : ExchangeResult}
    {initial : Bool} {now : Nat} {idToken : Option String}
    (h : issueId keys issuer x initial now = .ok idToken) :
    (idToken.isSome = true ↔ initial = true ∧ "openid" ∈ x.scopes) ∧ ∀ token ∈ idToken,
      signId keys ((IdTokenClaims.issued issuer x now).toJson K) = .ok token := by
  unfold issueId at h
  split at h
  · rename_i hissue
    cases hsign : signId keys ((IdTokenClaims.issued issuer x now).toJson K) with
    | ok token =>
        rw [hsign] at h
        cases h
        refine ⟨by simpa using hissue, fun token' htoken => ?_⟩
        rw [Option.mem_some_iff.mp htoken]
    | error e =>
        rw [hsign] at h
        cases h
  · rename_i hno
    cases h
    exact ⟨by simpa using hno, fun token htoken => nomatch htoken⟩

/-- The ID token of a grant is a logout hint from the moment it is issued. -/
theorem issued_hint {K : KeyCrates} (hK : K.Lawful) {files : KeyFiles} {keys : SigningKeys K}
    (hkeys : load K files = .ok keys) {x : ExchangeResult} (hnamed : x.clientId ≠ "")
    {issuer : String} {now t : Nat} {token : String}
    (h : signId keys ((IdTokenClaims.issued issuer x now).toJson K) = .ok token) (ht : now ≤ t) :
    verifyIdLogout keys token issuer t = .ok (.issued issuer x now) := by
  refine verifyIdLogout_own (n := now + 300) hK hkeys h hnamed rfl ?_ ?_
  · show (now : Int) < now + 300
    omega
  · show (now : Int) ≤ t + 30
    omega

/-- **No token passes for the other kind, and scopes decide what is shown.** The access token of
    a grant is answered exactly for `openid`, with the members of its scopes; an ID token is
    issued for a first `openid` exchange, carries its nonce and its session, and is a logout hint
    and nothing else; an access token is no logout hint under any key set. -/
theorem token_classes (C : HttpCrates) (K : KeyCrates) (hK : K.Lawful) {files : KeyFiles}
    {keys : SigningKeys K} (hkeys : load K files = .ok keys) {R : ClientRegistry}
    (hR : R.Built C.toPlatform) {x : ExchangeResult} (hx : Returnable R x) {p : Provider}
    {initial : Bool} {now : Nat} {jti : Uuid} {response : TokenResponse}
    (h : issue keys p.issuer p.userinfo x initial now jti = .ok response) :
    (∃ c : AccessClaims, sign keys (c.toJson K) = .ok response.accessToken ∧
      splitScopes c.scope = x.scopes ∧ c.aud.Nodup ∧
      (p.userinfo ∈ c.aud ↔ "openid" ∈ x.scopes ∨ x.resource = p.userinfo) ∧
      ∀ a ∈ c.aud, a = x.resource ∨ a = p.userinfo) ∧
    (∀ headers body, bearerToken C headers body = some response.accessToken →
      origin headers = none → ∀ profileOf profile, profileOf x.userId = some profile →
      ∀ t t', now ≤ t → t ≤ t' → t' ≤ now + 300 →
        ((∃ ms, userinfo C keys p profileOf t t' headers body = some ms) ↔ "openid" ∈ x.scopes) ∧
        ∀ ms, userinfo C keys p profileOf t t' headers body = some ms →
          ms = disclosed K x.userId x.scopes profile ∧
          ∀ m ∈ ms, m = ("sub", .str (K.uuidText x.userId)) ∨
            ("profile" ∈ x.scopes ∧ m ∈ profileMembers profile) ∨
            ("email" ∈ x.scopes ∧ m ∈ emailMembers profile)) ∧
    (response.idToken.isSome = true ↔ initial = true ∧ "openid" ∈ x.scopes) ∧
    (∀ idToken ∈ response.idToken,
      (∃ c, (∀ t, now ≤ t → verifyIdLogout keys idToken p.issuer t = .ok c) ∧
        c.nonce = x.oidcNonce ∧ c.sid = some x.sessionId ∧ c.sub = x.userId ∧
        c.aud = x.clientId) ∧
      ∀ (keys' : SigningKeys K) p' profileOf t t' headers body,
        bearerToken C headers body = some idToken →
          userinfo C keys' p' profileOf t t' headers body = none) ∧
    (∀ (keys' : SigningKeys K) issuer t c,
      verifyIdLogout keys' response.accessToken issuer t ≠ .ok c) ∧
    ∀ mode url issuer clients R₀, C.parse issuer = some url → validateIssuer mode url = .ok () →
      C.WritesRoots issuer → ClientRegistry.withIssuer C.toPlatform clients issuer = .ok R₀ →
      p.issuer = trimSlashes issuer → R₀.userinfoResource = some p.userinfo := by
  have hnamed := hx.named hR
  obtain ⟨accessToken, haccess, h⟩ := bind_ok h
  obtain ⟨idToken, hid, h⟩ := bind_ok h
  cases h
  refine ⟨⟨_, haccess, split_join hx.nonempty hx.tokens, audiences_nodup _ _, ?_, fun a ha => ?_⟩,
    fun headers body htoken horigin profileOf profile hprofile t t' ht htt' ht' => ?_, ?_,
    fun token htoken => ?_, fun keys' issuer t c hv => ?_,
    fun mode url issuer clients R₀ hurl hvalid hroot hR₀ hp =>
      userinfo_agrees hurl hvalid hroot hR₀ hp⟩
  · refine mem_audiences.trans ?_
    rw [eq_comm (a := p.userinfo), or_comm]
    simp
  · rcases mem_audiences.mp ha with ha | ⟨-, ha⟩
    · exact Or.inl ha
    · exact Or.inr ha
  · have hiff := userinfo_iff C hK hkeys hx hnamed haccess htoken horigin profileOf t t'
    refine ⟨⟨fun ⟨ms, hms⟩ => ((hiff ms).mp hms).1, fun hopenid => ⟨_, (hiff _).mpr
      ⟨hopenid, by omega, by omega, by omega, profile, hprofile, rfl⟩⟩⟩, fun ms hms => ?_⟩
    obtain ⟨-, -, -, -, profile', hprofile', rfl⟩ := (hiff ms).mp hms
    obtain rfl := Option.some.inj (hprofile.symm.trans hprofile')
    exact ⟨rfl, fun m hm => mem_disclosed hm⟩
  · exact (issueId_ok hid).1
  · have hsign := (issueId_ok hid).2 token htoken
    refine ⟨⟨_, fun t ht => issued_hint hK hkeys hnamed hsign ht, rfl, rfl, rfl, rfl⟩,
      fun keys' p' profileOf t t' headers body hpresented => ?_⟩
    cases hanswer : userinfo C keys' p' profileOf t t' headers body with
    | none => rfl
    | some ms =>
        obtain ⟨token', c, -, htoken', hverify, -⟩ := userinfo_some.mp hanswer
        obtain rfl := Option.some.inj (hpresented.symm.trans htoken')
        exact absurd (verify_typ hK hsign hverify) (by decide)
  · exact absurd (verifyIdLogout_typ hK haccess hv) (by decide)

/-! A grant of the policy, read at the endpoint. -/

namespace Sample

def webCrates : HttpCrates :=
  { remotePlatform with
    formParse := fun _ => [], formSerialize := fun _ => "", appendPairs := fun base _ => some base }

def provider : Provider :=
  ⟨registry, none, ⟨"google", "https://id.example/callback", "https://accounts.example/auth"⟩,
    "https://id.example", true⟩

def exchanged : ExchangeResult :=
  ⟨7, 1, grant.clientId, grant.scopes, grant.resource, some "token", some "nonce", none⟩

theorem exchanged_returnable : Returnable registry exchanged where
  accepted := ⟨client, by decide, by decide⟩
  nonempty := by decide
  distinct := by decide
  tokens := by decide +kernel

/-- The two tokens of the grant, signed with the old key. -/
noncomputable def accessStatement : Signed :=
  (⟨.rs256, some "at+jwt", some "old"⟩, (AccessClaims.issued (keyCrates []) provider.issuer
    provider.userinfo exchanged 1000 5).members (keyCrates []), oldKey)

noncomputable def hintStatement : Signed :=
  (⟨.rs256, some "JWT", some "old"⟩, (IdTokenClaims.issued provider.issuer exchanged
    1000).members (keyCrates []), oldKey)

noncomputable def signedPair : List Signed := [accessStatement, hintStatement]

open Classical in
theorem issues_pair {keys : SigningKeys (keyCrates signedPair)} (hkid : keys.activeKid = "old")
    (hencoding : keys.encoding = oldKey) :
    issue keys provider.issuer provider.userinfo exchanged true 1000 5 =
      .ok ⟨mark 1, "Bearer", 300, joinScopes exchanged.scopes, some "token", some (mark 2)⟩ := by
  have hfirst : signedPair.idxOf accessStatement = 0 := List.idxOf_cons_self ..
  have hother : accessStatement ≠ hintStatement := fun h =>
    absurd (congrArg (fun s : Signed => s.1.typ) h) (by simp [accessStatement, hintStatement])
  have hsecond : signedPair.idxOf hintStatement = 1 := by
    rw [signedPair, List.idxOf_cons_ne _ hother, List.idxOf_cons_self]
  have haccess : sign keys ((AccessClaims.issued (keyCrates signedPair) provider.issuer
      provider.userinfo exchanged 1000 5).toJson (keyCrates signedPair)) = .ok (mark 1) := by
    rw [sign, signTyped, hkid, hencoding, orError_ok]
    exact (encode_signed (List.mem_cons_self ..)).trans
      (congrArg (fun i => some (mark (i + 1))) hfirst)
  have hid : signId keys ((IdTokenClaims.issued provider.issuer exchanged 1000).toJson
      (keyCrates signedPair)) = .ok (mark 2) := by
    rw [signId, signTyped, hkid, hencoding, orError_ok]
    exact (encode_signed (List.mem_cons_of_mem _ (List.mem_cons_self ..))).trans
      (congrArg (fun i => some (mark (i + 1))) hsecond)
  have hopenid : issueId keys provider.issuer exchanged true 1000 = .ok (some (mark 2)) := by
    rw [issueId, if_pos (by decide), hid]
    rfl
  rw [issue, haccess, hopenid]
  rfl

end Sample

open Sample in
theorem token_classes_openid : ∃ keys response,
    load (keyCrates signedPair) (keyFiles announced) = .ok keys ∧
    issue keys provider.issuer provider.userinfo exchanged true 1000 5 = .ok response ∧
    (∃ ms, userinfo webCrates keys provider (fun _ => some ⟨some "Ada", none, none, none, none⟩)
      1010 1010 [("authorization", utf8 "Bearer x")] [] = some ms ∧
      ms = [("sub", .str (mark 2))]) ∧
    ∀ t c, verifyIdLogout keys response.accessToken provider.issuer t ≠ .ok c := by
  obtain ⟨keys, hkeys, hkid, hencoding⟩ := announced_keys signedPair
  have hissue := issues_pair hkid hencoding
  obtain ⟨-, hanswer, -, -, hhint, -⟩ := token_classes webCrates (keyCrates signedPair)
    (keyCrates_lawful signedPair) hkeys registry_built exchanged_returnable hissue
  have hpresented :
      bearerToken webCrates [("authorization", utf8 "Bearer x")] [] = some (mark 1) := by
    decide +kernel
  obtain ⟨hiff, hshown⟩ := hanswer _ _ hpresented rfl
    (fun _ => some ⟨some "Ada", none, none, none, none⟩) _ rfl 1010 1010 (by decide) (by decide)
    (by decide)
  obtain ⟨ms, hms⟩ := hiff.mpr (by decide)
  exact ⟨keys, _, hkeys, hissue, ⟨ms, hms, (hshown ms hms).1.trans rfl⟩,
    fun t c => hhint keys _ t c⟩

end Eri
