/-
  File:      Eri/Usable.lean
  Subject:   Whether a metadata document that was accepted can be used (src/cimd.rs,
             src/oauth.rs, src/config.rs).

  Redirect URIs are checked twice, by two validators: the document's looks at the parsed URL, the
  registration's splits the text again. They agree on every URI but a loopback one with port 0.

  * `WritesUrls` -- how the URL parser writes a URL down;
  * `Listed`, `Listed.registered_iff` -- a listed URI can be registered exactly when its port
    is not 0;
  * `PolicyHolds` -- what the check of the local policy has shown;
  * **`documents_usable`** -- a document can be used exactly when all of its URIs can.
-/
import Eri.Config
import Eri.Metadata
import Eri.Policy

namespace Eri

/-! ## 1. URLs as text -/

/-- A port as it stands in a URL. -/
def portText : Option Nat → List Char
  | none => []
  | some n => ':' :: Nat.toDigits 10 n

def queryText : Option String → List Char
  | none => []
  | some query => '?' :: query.toList

/-- `::1`, `127.0.0.1`. -/
def loopbackHosts : List (Host × String) :=
  [(.ipv4 0x7f000001#32, "127.0.0.1"), (.ipv6 1#128, "[::1]")]

/-- **How the `url` crate writes a URL down** that has a host and neither credentials nor a
    fragment; `hostText` is the text of a host. -/
structure WritesUrls (C : Crates) (hostText : Host → String) : Prop where
  written : ∀ raw url host, C.url raw = some url → url.host = some host → url.username = "" →
    url.password = none → url.fragment = none →
    url.asStr.toList = url.scheme.toList ++ ("://".toList ++ ((hostText host).toList ++
      portText url.port ++ (url.path.toList ++ queryText url.query)))
  ports : ∀ raw url, C.url raw = some url → ∀ port ∈ url.port, port ≤ 65535
  paths : ∀ raw url, C.url raw = some url → url.scheme = "http" → url.path.toList.head? = some '/'
  literals : ∀ h ∈ loopbackHosts, hostText h.1 = h.2

theorem isPrefixOf_iff {p s : String} :
    p.isPrefixOf s = true ↔ ∃ rest, s.toList = p.toList ++ rest := by
  unfold String.isPrefixOf
  rw [String.startsWith_string_iff]
  exact ⟨fun ⟨rest, h⟩ => ⟨rest, h.symm⟩, fun ⟨rest, h⟩ => ⟨rest, h.symm⟩⟩

/-- A number is the value of its digits. -/
theorem decimal_toDigits (n : Nat) : decimal (Nat.toDigits 10 n) = n := by
  have h := Nat.ofDigitChars_toDigits (b := 10) (n := n) (by decide) (by decide)
  rw [Nat.ofDigitChars_eq_foldl] at h
  have hstep : (fun (n : Nat) (c : Char) => n * 10 + (c.toNat - 48)) =
      fun sofar c => 10 * sofar + (c.toNat - '0'.toNat) := by
    funext n c
    have hzero : '0'.toNat = 48 := rfl
    rw [hzero, Nat.mul_comm]
  unfold decimal
  rw [hstep, h]

/-- A port that is written down can be read again, unless it is 0. -/
theorem portPart_iff {n : Nat} (h : n ≤ 65535) : PortPart (portText (some n)) ↔ n ≠ 0 := by
  constructor
  · rintro (hnil | ⟨digits, hdigits, _, _, hpos, _⟩) rfl
    · cases hnil
    · have hsame : Nat.toDigits 10 0 = digits := List.tail_eq_of_cons_eq hdigits
      rw [← hsame, decimal_toDigits] at hpos
      exact absurd hpos (by decide)
  · intro hne
    have hdigits : (Nat.toDigits 10 n).all Char.isDigit = true :=
      List.all_eq_true.mpr fun c hc => Nat.isDigit_of_mem_toDigits (by decide) (by decide) hc
    have hvalue : decimal (Nat.toDigits 10 n) = n := decimal_toDigits n
    exact Or.inr ⟨_, rfl, Nat.toDigits_ne_nil, hdigits, by omega, by omega⟩

/-! ## 2. The redirects of a document -/

variable {C : Crates} {hostText : Host → String}

/-- **What the document's validator lets through**: a public `https` URL, or a literal loopback
    one with a port. -/
inductive Listed (C : Crates) (uri : String) : Prop where
  | remote (url : ParsedUrl) (host : String) (parsed : C.url uri = some url)
      (same : url.asStr = uri) (username : url.username = "") (password : url.password = none)
      (fragment : url.fragment = none) (scheme : url.scheme = "https")
      (named : url.host = some (.domain host))
  | loopback (url : ParsedUrl) (h : Host × String) (port : Nat) (parsed : C.url uri = some url)
      (same : url.asStr = uri) (username : url.username = "") (password : url.password = none)
      (fragment : url.fragment = none) (scheme : url.scheme = "http") (here : h ∈ loopbackHosts)
      (host : url.host = some h.1) (numbered : url.port = some port)

theorem safeRedirect_listed {uri : String} (h : Cimd.safeRedirect C uri = true) :
    Listed C uri := by
  unfold Cimd.safeRedirect at h
  split at h
  · cases h
  split at h
  · cases h
  rename_i url hurl
  split at h
  · cases h
  rename_i hparts
  push Not at hparts
  obtain ⟨hsame, husername, hpassword, hfragment⟩ := hparts
  have husername : url.username = "" := by simpa using husername
  have hpassword : url.password = none := by simpa using hpassword
  have hfragment : url.fragment = none := by simpa using hfragment
  split at h
  · exact .remote url _ hurl hsame husername hpassword hfragment ‹_› ‹_›
  · rename_i ip hscheme hhost
    simp only [Bool.and_eq_true, beq_iff_eq, Option.isSome_iff_exists] at h
    obtain ⟨rfl, port, hport⟩ := h
    exact .loopback url (.ipv4 0x7f000001#32, "127.0.0.1") port hurl hsame husername hpassword
      hfragment hscheme List.mem_cons_self hhost hport
  · rename_i ip hscheme hhost
    simp only [Bool.and_eq_true, beq_iff_eq, Option.isSome_iff_exists] at h
    obtain ⟨rfl, port, hport⟩ := h
    exact .loopback url (.ipv6 1#128, "[::1]") port hurl hsame husername hpassword
      hfragment hscheme (List.mem_cons_of_mem _ List.mem_cons_self) hhost hport
  · cases h

/-- A URI whose port can be registered: not port 0 of `http`. -/
def UsablePort (C : Crates) (uri : String) : Prop :=
  ∀ url, C.url uri = some url → ¬(url.scheme = "http" ∧ url.port = some 0)

/-- A listed URI is a safe redirect for the registration too. -/
theorem Listed.safe {uri : String} (h : Listed C uri) :
    ∃ url : ParsedUrl, C.url uri = some url ∧
      Eri.safeRedirect C.toPlatform uri = some url.toUrl := by
  have hsafe : ∀ url : ParsedUrl, C.url uri = some url → url.scheme ≠ "" → url.username = "" →
      url.password = none → url.fragment = none →
      Eri.safeRedirect C.toPlatform uri = some url.toUrl := by
    intro url hurl hscheme husername hpassword hfragment
    unfold Eri.safeRedirect
    rw [C.parse_url, hurl, Option.map_some, Option.filter_some, if_pos]
    simp [hscheme, husername, hpassword, hfragment]
  cases h with
  | remote url _ hurl _ husername hpassword hfragment hscheme _ =>
      exact ⟨url, hurl, hsafe url hurl (by simp [hscheme]) husername hpassword hfragment⟩
  | loopback url _ _ hurl _ husername hpassword hfragment hscheme _ _ _ =>
      exact ⟨url, hurl, hsafe url hurl (by simp [hscheme]) husername hpassword hfragment⟩

/-- The text of a listed loopback URI, and what the splitter makes of it. -/
theorem loopback_split {uri : String} {h : Host × String} {port : Nat}
    {after : List Char} (hhere : h ∈ loopbackHosts) (hport : port ≤ 65535)
    (htext : uri.toList = "http://".toList ++ (h.2.toList ++ portText (some port) ++ after))
    (hafter : after.head? = some '/') :
    (loopbackParts uri).isSome = true ↔ port ≠ 0 := by
  have hliteral : h.2 ∈ loopbackLiterals := by
    rcases List.mem_pair.mp hhere with rfl | rfl
    · exact List.mem_cons_self
    · exact List.mem_cons_of_mem _ List.mem_cons_self
  constructor
  · intro hsome
    obtain ⟨⟨host, suffix⟩, hparts⟩ := Option.isSome_iff_exists.mp hsome
    obtain ⟨port', hloopback⟩ := loopbackParts_iff.mp hparts
    have hinside : ∀ c ∈ h.2.toList ++ portText (some port), endsAuthority c = false := by
      intro c hc
      rcases List.mem_append.mp hc with hc | hc
      · exact literal_inside hliteral c hc
      · rcases List.mem_cons.mp hc with rfl | hc
        · decide
        · exact endsAuthority_digit (Nat.isDigit_of_mem_toDigits (by decide) (by decide) hc)
    obtain ⟨hauthority, _, _⟩ := hloopback.authority htext hinside
      (Or.inr ⟨'/', hafter, by decide⟩)
    -- the two literals begin differently, so the splitter found the one that stands there
    have hsame : portText (some port) = port' := by
      have hhost := hloopback.literal
      rcases List.mem_pair.mp hliteral with e | e <;> rcases List.mem_pair.mp hhost with rfl | rfl
      · rw [e] at hauthority
        exact List.append_cancel_left hauthority
      · rw [e] at hauthority
        cases hauthority
      · rw [e] at hauthority
        cases hauthority
      · rw [e] at hauthority
        exact List.append_cancel_left hauthority
    exact (portPart_iff hport).mp (hsame ▸ hloopback.numbered)
  · intro hne
    have hloopback : Loopback uri h.2 (portText (some port)) after :=
      ⟨hliteral, (portPart_iff hport).mpr hne, Or.inr (Or.inl hafter), htext⟩
    rw [loopbackParts_iff.mpr ⟨_, hloopback⟩]
    rfl

/-- **A listed URI can be registered exactly when its port is not 0.** -/
theorem Listed.registered_iff (hC : WritesUrls C hostText) {uri : String} (h : Listed C uri) :
    RegisteredRedirect.new C.toPlatform uri (RegisteredRedirect.ofDocument uri).kind =
      .ok (.ofDocument uri) ↔ UsablePort C uri := by
  obtain ⟨url', hurl', hsafe⟩ := h.safe
  unfold RegisteredRedirect.new
  rw [hsafe]
  cases h with
  | remote url host hurl hsame husername hpassword hfragment hscheme hhost =>
      obtain rfl : url' = url := Option.some.inj (hurl'.symm.trans hurl)
      have htext := hC.written _ _ _ hurl hhost husername hpassword hfragment
      have hexact : "http://".isPrefixOf uri = false := by
        refine Bool.eq_false_iff.mpr fun hprefix => ?_
        obtain ⟨rest, hrest⟩ := isPrefixOf_iff.mp hprefix
        rw [← hsame, htext, hscheme] at hrest
        cases hrest
      have husable : UsablePort C uri := by
        intro u hu hport
        obtain rfl : u = url' := Option.some.inj (hu.symm.trans hurl')
        rw [hscheme] at hport
        exact absurd hport.1 (by decide)
      simp [RegisteredRedirect.ofDocument, hexact, husable]
  | loopback url l port hurl hsame husername hpassword hfragment hscheme hhere hhost hport =>
      obtain rfl : url' = url := Option.some.inj (hurl'.symm.trans hurl)
      have htext := hC.written _ _ _ hurl hhost husername hpassword hfragment
      rw [hsame, hscheme, hport, hC.literals l hhere] at htext
      have hnative : "http://".isPrefixOf uri = true :=
        isPrefixOf_iff.mpr ⟨_, htext.trans (List.append_assoc "http".toList "://".toList _).symm⟩
      have hafter : (url'.path.toList ++ queryText url'.query).head? = some '/' := by
        rw [List.head?_append, hC.paths _ _ hurl hscheme]
        rfl
      have hsplit := loopback_split hhere (hC.ports _ _ hurl port hport) htext hafter
      have husable : UsablePort C uri ↔ port ≠ 0 := by
        constructor
        · rintro husable rfl
          exact husable url' hurl ⟨hscheme, hport⟩
        · rintro hne u hu ⟨_, hzero⟩
          obtain rfl : u = url' := Option.some.inj (hu.symm.trans hurl)
          exact hne (Option.some.inj (hport.symm.trans hzero))
      rw [husable, ← hsplit]
      cases hparts : loopbackParts uri with
      | none => simp [RegisteredRedirect.ofDocument, hnative]
      | some parts => simp [RegisteredRedirect.ofDocument, hnative, hscheme]

/-! ## 3. The local policy -/

/-- **What an accepted policy has shown.** -/
structure PolicyHolds (P : Platform) (policy : CimdPolicyConfig) : Prop where
  resources : policy.resources ≠ []
  tokens : ∀ s ∈ policy.scopes, validScopeToken s = true
  useful : ∃ s ∈ policy.scopes, s ≠ "offline_access"
  identifiers : ∀ r ∈ policy.resources, safeSecurityIdentifier P r = true

theorem CimdPolicyConfig.validate_holds {P : Platform} {policy : CimdPolicyConfig}
    (h : policy.validate P = .ok ()) : PolicyHolds P policy := by
  unfold CimdPolicyConfig.validate at h
  obtain ⟨hshape, h⟩ := ite_ok h
  obtain ⟨redirect, _, h⟩ := bind_ok h
  push Not at hshape
  obtain ⟨_, _, hresources, _, _, _, huseful⟩ := hshape
  unfold FirstPartyClient.new FirstPartyClient.withAuthorizationFlow at h
  split at h
  · cases h
  rename_i hdeclared
  split at h
  · cases h
  rename_i hsafe
  push Not at hdeclared hsafe
  obtain ⟨_, _, _, _, htokens⟩ := hdeclared
  refine ⟨hresources, fun s hs => ?_, ?_, fun r hr => ?_⟩
  · simpa using htokens s (List.mem_toFinset.mpr hs)
  · obtain ⟨s, hs, hne⟩ := List.any_eq_true.mp huseful
    exact ⟨s, hs, bne_iff_ne.mp hne⟩
  · simpa using hsafe.2.1 r (List.mem_toFinset.mpr hr)

/-- The client of a document is refused for an empty id only. -/
theorem PolicyHolds.client_ok {P : Platform} {policy : CimdPolicyConfig}
    (h : PolicyHolds P policy) {clientId : String} (name : String)
    {redirects : List RegisteredRedirect} (hredirects : redirects ≠ []) (refresh : Bool) :
    (∃ c, FirstPartyClient.new P clientId s!"{clientId} · nombre declarado: {name}" redirects
      (policy.scopes.filter fun s => refresh || s != "offline_access").toFinset
      policy.resources.toFinset none ∅ ∅ = .ok c) ↔ clientId ≠ "" := by
  constructor
  · rintro ⟨c, hc⟩
    exact (FirstPartyClient.withAuthorizationFlow_ok hc).1
  · intro hid
    have hname : ¬(s!"{clientId} · nombre declarado: {name}").toList.all isWhiteSpace = true := by
      intro hall
      have hdot : '·' ∈ (s!"{clientId} · nombre declarado: {name}").toList := by
        have hmiddle : '·' ∈ " · nombre declarado: ".toList := by decide
        have htext : s!"{clientId} · nombre declarado: {name}" =
            clientId ++ " · nombre declarado: " ++ name := rfl
        rw [htext, String.toList_append, String.toList_append]
        exact List.mem_append_left _ (List.mem_append_right _ hmiddle)
      exact absurd (List.all_eq_true.mp hall _ hdot) (by decide)
    have hscopes :
        (policy.scopes.filter fun s => refresh || s != "offline_access").toFinset ≠ ∅ := by
      obtain ⟨s, hs, hne⟩ := h.useful
      refine Finset.ne_empty_of_mem (a := s) (List.mem_toFinset.mpr (List.mem_filter.mpr ⟨hs, ?_⟩))
      simp [hne]
    have htokens : ∀ s ∈ (policy.scopes.filter fun s => refresh || s != "offline_access").toFinset,
        validScopeToken s = true := by
      intro s hs
      exact h.tokens s (List.mem_filter.mp (List.mem_toFinset.mp hs)).1
    have hidentifiers : ∀ r ∈ policy.resources.toFinset, safeSecurityIdentifier P r = true :=
      fun r hr => h.identifiers r (List.mem_toFinset.mp hr)
    unfold FirstPartyClient.new FirstPartyClient.withAuthorizationFlow
    rw [if_neg, if_neg]
    · exact ⟨_, rfl⟩
    · push Not
      exact ⟨by simp, by simpa using hidentifiers, by simp, by simp⟩
    · push Not
      exact ⟨by simpa using hid, hname, hredirects, Finset.nonempty_iff_ne_empty.mpr hscopes,
        htokens⟩

/-! ## 4. Documents that can be used -/

/-- A list of checks passes exactly when each of them does. -/
theorem mapM_ok_iff {ε α β : Type} {f : α → Except ε β} {l : List α} :
    (∃ rs, l.mapM f = .ok rs) ↔ ∀ x ∈ l, ∃ r, f x = .ok r := by
  induction l with
  | nil => exact ⟨fun _ => List.forall_mem_nil _, fun _ => ⟨[], rfl⟩⟩
  | cons x l ih =>
      rw [List.forall_mem_cons, ← ih, List.mapM_cons]
      constructor
      · rintro ⟨rs, h⟩
        obtain ⟨r, hr, h⟩ := bind_ok h
        obtain ⟨rs', hrs, _⟩ := bind_ok h
        exact ⟨⟨r, hr⟩, rs', hrs⟩
      · rintro ⟨⟨r, hr⟩, rs, hrs⟩
        refine ⟨r :: rs, ?_⟩
        rw [hr, hrs]
        rfl

section Usable

variable {policy : CimdPolicyConfig} {clientId : String} {body : List UInt8}
variable {R : ClientRegistry} {now : Instant}

open ClientRegistry

/-- **When a document becomes a client**: every one of its URIs is registered. -/
theorem projectCimd_iff {P : Platform} (snapshot : LeasedClientMetadata)
    (hpolicy : PolicyHolds P policy)
    (hunknown : R.containsClient snapshot.document.clientId = false)
    (hfresh : snapshot.isFresh now = true) (hlisted : snapshot.document.redirectUris ≠ []) :
    (∃ R', R.projectCimd P now snapshot policy.scopes policy.resources policy.allowRefresh =
      .ok R') ↔ snapshot.document.clientId ≠ "" ∧ ∀ uri ∈ snapshot.document.redirectUris,
        RegisteredRedirect.new P uri (RegisteredRedirect.ofDocument uri).kind =
          .ok (.ofDocument uri) := by
  have hscopes : policy.scopes ≠ [] := by
    obtain ⟨s, hs, _⟩ := hpolicy.useful
    exact List.ne_nil_of_mem hs
  have hregistered : (∃ rs, (snapshot.document.redirectUris.mapM fun uri =>
      RegisteredRedirect.new P uri (RegisteredRedirect.ofDocument uri).kind) = .ok rs) ↔
      ∀ uri ∈ snapshot.document.redirectUris,
        RegisteredRedirect.new P uri (RegisteredRedirect.ofDocument uri).kind =
          .ok (.ofDocument uri) := by
    rw [mapM_ok_iff]
    refine forall₂_congr fun uri _ => ⟨fun ⟨r, hr⟩ => ?_, fun h => ⟨_, h⟩⟩
    rw [hr, RegisteredRedirect.new_ok hr]
    rfl
  rw [← hregistered]
  unfold projectCimd
  rw [dif_neg (by simp [hunknown, hfresh, hscopes, hpolicy.resources])]
  constructor
  · rintro ⟨R', h⟩
    obtain ⟨redirects, hredirects, h⟩ := bind_ok h
    split at h
    · cases h
    rename_i client hclient
    exact ⟨(FirstPartyClient.withAuthorizationFlow_ok hclient).1, redirects, hredirects⟩
  · rintro ⟨hid, redirects, hredirects⟩
    have hsome : redirects ≠ [] := by
      rw [mapM_redirects hredirects]
      simpa using hlisted
    obtain ⟨client, hclient⟩ := (hpolicy.client_ok snapshot.document.clientName hsome
      (policy.allowRefresh && snapshot.document.refreshAllowed)).mpr hid
    have hsame : (snapshot.document.redirectUris.mapM fun uri => RegisteredRedirect.new P uri
        (if "http://".isPrefixOf uri then .nativeLoopback else .exact)) = .ok redirects :=
      hredirects
    rw [hsame]
    dsimp only [bind, Except.bind]
    split
    · rename_i e he
      rw [hclient] at he
      cases he
    · exact ⟨_, rfl⟩

/-- **An accepted document can be used exactly when none of its URIs has port 0.** Under an
    accepted policy, and beside a registry that does not know the id, the document becomes a
    client, and each of its URIs a trusted redirect of it, if and only if the id is not empty
    and no `http` URI of the document has port 0. A URI the document's validator lets through
    can be registered, as the kind its text stands for, under the same condition. -/
theorem documents_usable (C : Crates) {hostText : Host → String} (hC : WritesUrls C hostText)
    {policy : CimdPolicyConfig} (hpolicy : policy.validate C.toPlatform = .ok ())
    {clientId : String} {body : List UInt8} {d : ClientMetadataDocument}
    (hd : Cimd.validateDocument C clientId body = .ok d) {R : ClientRegistry}
    (hR : R.containsClient clientId = false) {now validUntil : Instant}
    (hfresh : now < validUntil) :
    ((∃ R', R.projectCimd C.toPlatform now ⟨d, validUntil⟩ policy.scopes policy.resources
        policy.allowRefresh = .ok R' ∧
        ∀ uri ∈ d.redirectUris, R'.trustedRedirect C.toPlatform clientId uri = true) ↔
      clientId ≠ "" ∧ ∀ uri ∈ d.redirectUris, UsablePort C uri) ∧
    ∀ uri, Cimd.safeRedirect C uri = true →
      ((∃ r, RegisteredRedirect.new C.toPlatform uri (RegisteredRedirect.ofDocument uri).kind =
        .ok r) ↔ UsablePort C uri) := by
  obtain ⟨obj, _, _, hreads⟩ := Cimd.validateDocument_reads hd
  obtain rfl := hreads.same
  have hlisted : ∀ uri ∈ d.redirectUris, Listed C uri :=
    fun uri huri => safeRedirect_listed (hreads.safe uri huri)
  have hproject := projectCimd_iff ⟨d, validUntil⟩ (CimdPolicyConfig.validate_holds hpolicy)
    hR (decide_eq_true hfresh) hreads.listed
  have hports : (∀ uri ∈ d.redirectUris, RegisteredRedirect.new C.toPlatform uri
      (RegisteredRedirect.ofDocument uri).kind = .ok (.ofDocument uri)) ↔
      ∀ uri ∈ d.redirectUris, UsablePort C uri :=
    forall₂_congr fun uri huri => (hlisted uri huri).registered_iff hC
  refine ⟨?_, fun uri huri => ?_⟩
  · rw [← hports, ← hproject]
    constructor
    · rintro ⟨R', h, _⟩
      exact ⟨R', h⟩
    · rintro ⟨R', h⟩
      obtain ⟨client, hprojected⟩ := projectCimd_projected h
      refine ⟨R', h, fun uri huri => ?_⟩
      -- a registered URI matches itself
      obtain ⟨url, _, hsafe⟩ := (hlisted uri huri).safe
      have hself : redirectMatches C.toPlatform (.ofDocument uri) uri = true :=
        redirectMatches_iff.mpr ⟨by rw [hsafe]; rfl, Or.inl rfl⟩
      have hget : R'.get d.clientId = some client := hprojected.get_self
      unfold trustedRedirect
      rw [hget, Option.any_some, hprojected.redirects]
      exact List.any_eq_true.mpr ⟨_, List.mem_map_of_mem huri, hself⟩
  · have hregistered := (safeRedirect_listed huri).registered_iff hC
    rw [← hregistered]
    refine ⟨fun ⟨r, hr⟩ => ?_, fun h => ⟨_, h⟩⟩
    rw [hr, RegisteredRedirect.new_ok hr]
    rfl

end Usable

namespace Sample

/-- A URL of a host, as the parser sees it. -/
def hostUrl (scheme : String) (host : Host) (port : Option Nat) (path asStr : String) :
    ParsedUrl :=
  { scheme, username := "", password := none, host := some host, path, query := none
    fragment := none, cannotBeABase := false, asStr, port }

def zeroCallback : String := "http://127.0.0.1:0/callback"

def nativeCallback : String := "http://[::1]:8080/callback"

/-- The URLs of the samples. -/
def urls : List ParsedUrl :=
  [hostUrl "https" (.domain "policy.example.org") none "/callback"
     "https://policy.example.org/callback",
   hostUrl "https" (.domain "api.example.org") none "/" "https://api.example.org/",
   hostUrl "http" (.ipv4 0x7f000001#32) (some 0) "/callback" zeroCallback,
   hostUrl "http" (.ipv6 1#128) (some 8080) "/callback" nativeCallback]

def hostName : Host → String
  | .domain name => name
  | .ipv4 bits => if bits = 0x7f000001#32 then "127.0.0.1" else ""
  | .ipv6 bits => if bits = 1#128 then "[::1]" else ""

/-- A document with one redirect URI. -/
def appWith (uri : String) : List (String × Json) :=
  [("client_id", .str appId), ("client_name", .str "App"),
   ("token_endpoint_auth_method", .str "none"), ("redirect_uris", .arr [.str uri])]

/-- The crates, on the URLs and two bodies. -/
def portCrates : Crates where
  digest _ := Vector.replicate 32 0
  url raw := urls.find? fun url => url.asStr = raw
  parse raw := (urls.find? fun url => url.asStr = raw).map ParsedUrl.toUrl
  join _ _ := none
  hashText _ := 0
  members body := [appWith zeroCallback, appWith nativeCallback].find? fun ms => body = bodyOf ms
  parse_url _ := rfl

theorem portCrates_writes : WritesUrls portCrates hostName := by
  have hmem : ∀ {raw url}, portCrates.url raw = some url → url ∈ urls := by
    intro raw url h
    have hfound : (urls.find? fun url => url.asStr = raw) = some url := h
    exact List.mem_of_find?_eq_some hfound
  have hwritten : ∀ url ∈ urls, ∀ host ∈ url.host, url.asStr.toList = url.scheme.toList ++
      ("://".toList ++ ((hostName host).toList ++
        portText url.port ++ (url.path.toList ++ queryText url.query))) := by decide +kernel
  have hports : ∀ url ∈ urls, ∀ port ∈ url.port, port ≤ 65535 := by decide +kernel
  have hpaths : ∀ url ∈ urls, url.path.toList.head? = some '/' := by decide +kernel
  exact ⟨fun raw url host h hhost _ _ _ => hwritten url (hmem h) host hhost,
    fun raw url h => hports url (hmem h), fun raw url h _ => hpaths url (hmem h), by decide⟩

def policy : CimdPolicyConfig where
  scopes := ["openid", "offline_access"]
  resources := ["https://api.example.org/"]
  allowRefresh := true

/-- A registry without clients. -/
def noClients : ClientRegistry := ⟨[], none, none, List.nodup_nil⟩

/-- The document that lists one redirect URI. -/
def appDocument (uri : String) : ClientMetadataDocument := ⟨appId, "App", [uri], false⟩

end Sample

/-- **A document that is accepted and cannot be used**: its redirect URI has port 0. -/
theorem port_zero_document :
    WritesUrls Sample.portCrates Sample.hostName ∧
      Sample.policy.validate Sample.portCrates.toPlatform = .ok () ∧
      Cimd.validateDocument Sample.portCrates Sample.appId
        (Sample.bodyOf (Sample.appWith Sample.zeroCallback)) =
          .ok (Sample.appDocument Sample.zeroCallback) ∧
      Sample.noClients.containsClient Sample.appId = false ∧
      ∀ R', Sample.noClients.projectCimd Sample.portCrates.toPlatform 0
        ⟨Sample.appDocument Sample.zeroCallback, 1⟩ Sample.policy.scopes Sample.policy.resources
        Sample.policy.allowRefresh ≠ .ok R' := by
  refine ⟨Sample.portCrates_writes, by decide +kernel, by decide +kernel, by decide, ?_⟩
  intro R' h
  have hrefused : (Sample.noClients.projectCimd Sample.portCrates.toPlatform 0
      ⟨Sample.appDocument Sample.zeroCallback, 1⟩ Sample.policy.scopes Sample.policy.resources
      Sample.policy.allowRefresh).toOption.isSome = false := by decide +kernel
  rw [h] at hrefused
  cases hrefused

/-- A document with a loopback URI of another port becomes a client. -/
theorem documents_usable_native :
    ∃ R', Sample.noClients.projectCimd Sample.portCrates.toPlatform 0
        ⟨Sample.appDocument Sample.nativeCallback, 1⟩ Sample.policy.scopes
        Sample.policy.resources Sample.policy.allowRefresh = .ok R' ∧
      ∀ uri ∈ (Sample.appDocument Sample.nativeCallback).redirectUris,
        R'.trustedRedirect Sample.portCrates.toPlatform Sample.appId uri = true := by
  have hpolicy : Sample.policy.validate Sample.portCrates.toPlatform = .ok () := by
    decide +kernel
  have haccepted : Cimd.validateDocument Sample.portCrates Sample.appId
      (Sample.bodyOf (Sample.appWith Sample.nativeCallback)) =
        .ok (Sample.appDocument Sample.nativeCallback) := by decide +kernel
  have hports : ∀ uri ∈ (Sample.appDocument Sample.nativeCallback).redirectUris,
      UsablePort Sample.portCrates uri := by
    intro uri huri url hurl
    obtain rfl := List.mem_singleton.mp huri
    have hport : ∀ url ∈ Sample.portCrates.url Sample.nativeCallback, url.port ≠ some 0 := by
      decide +kernel
    exact fun hzero => hport url hurl hzero.2
  exact (documents_usable Sample.portCrates Sample.portCrates_writes hpolicy haccepted rfl
    (by decide : (0 : Instant) < 1)).1.mpr ⟨by decide, hports⟩

end Eri
