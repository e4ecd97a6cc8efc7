/-
  File:      Eri/Documents.lean
  Subject:   Client metadata documents from their URL to a lease (src/cimd.rs): which client
             ids, addresses and documents are accepted, and for how long a response is kept.

  * `validateClientId`, `publicDnsName`, `publicIp` -- where a document may come from;
  * `validateDocument` -- what it may say;
  * `cacheTtl` -- the lifetime its response states, in seconds;
  * `readResponse` -- the timed part of a fetch: the answers of resolver and server to a
    document and its lifetime, with `readResponse_ok`.
-/
import Eri.Registry

namespace Eri

/-! ## 1. Crates -/

/-- What the fetcher reads of a parsed URL besides its parts: its text and its port, when that
    is not the default one of the scheme. -/
structure ParsedUrl extends Url where
  asStr : String
  port : Option Nat

/-- The crates of the fetcher. `members` is what `serde_json` delivers to a visitor of a
    top-level object, member by member. -/
structure Crates extends Platform where
  url : String → Option ParsedUrl
  members : List UInt8 → Option (List (String × Json))
  parse_url : ∀ raw, parse raw = (url raw).map ParsedUrl.toUrl

def Json.asStr : Json → Option String
  | .str s => some s
  | _ => none

def Json.asArray : Json → Option (List Json)
  | .arr items => some items
  | _ => none

inductive CimdError where
  | invalidUrl
  | unsafeDestination
  | fetchFailed
  | invalidDocument
  | busy
  deriving DecidableEq

namespace Cimd

def maxDocumentBytes : Nat := 5 * 1024

def maxClientIdBytes : Nat := 2048

def maxRedirects : Nat := 16

/-- `MAX_CACHE_TTL`, in seconds. -/
def maxCacheTtl : Nat := 300

/-! ## 2. Text -/

/-- `char::is_control`. -/
def isControl (c : Char) : Bool := decide (c.toNat < 32) || (127 ≤ c.toNat && c.toNat ≤ 159)

def backslash : Char := Char.ofNat 92

def quote : Char := Char.ofNat 34

/-- `str::trim`. -/
def trim (s : List Char) : List Char :=
  ((s.dropWhile isWhiteSpace).reverse.dropWhile isWhiteSpace).reverse

theorem isWhiteSpace_visible {c : Char} (hlow : 33 ≤ c.toNat) (hhigh : c.toNat ≤ 126) :
    isWhiteSpace c = false := by
  have hall : ∀ n : Fin 127, 33 ≤ n.val → isWhiteSpace (Char.ofNat n) = false := by decide
  have hc := hall ⟨c.toNat, Nat.lt_succ_of_le hhigh⟩ hlow
  rwa [Char.ofNat_toNat] at hc

theorem trim_plain {s : List Char} (h : ∀ c ∈ s, isWhiteSpace c = false) : trim s = s := by
  have hdrop : ∀ l : List Char, (∀ c ∈ l, isWhiteSpace c = false) →
      l.dropWhile isWhiteSpace = l := by
    intro l hl
    cases l with
    | nil => rfl
    | cons c l => rw [List.dropWhile_cons_of_neg (by simp [hl c List.mem_cons_self])]
  unfold trim
  rw [hdrop s h, hdrop s.reverse fun c hc => h c (List.mem_reverse.mp hc), List.reverse_reverse]

/-- `str::to_ascii_lowercase`. -/
def lower (s : List Char) : String := String.ofList (s.map Char.toLower)

/-- A decimal octet as `Ipv4Addr::from_str` reads it: no leading zero. -/
def isOctet (s : List Char) : Bool :=
  !s.isEmpty && s.all Char.isDigit && decide (decimal s ≤ 255) &&
    (s.length == 1 || s.head? != some '0')

/-- `host.parse::<IpAddr>()`. An IPv6 literal has a colon, which no label of a name has. -/
def isIpText (host : List Char) : Bool :=
  let octets := host.splitOn '.'
  octets.length == 4 && octets.all isOctet

/-- `str::parse::<u64>`. -/
def parseU64 (s : List Char) : Option Nat :=
  let digits := if s.head? = some '+' then s.tail else s
  if digits = [] ∨ ¬digits.all Char.isDigit then none
  else if decimal digits < 2 ^ 64 then some (decimal digits) else none

/-! ## 3. Client ids and destinations -/

def reservedTlds : List String :=
  ["localhost", "local", "internal", "test", "invalid", "example", "onion", "arpa", "home", "lan"]

def publicDnsName (raw : String) : Bool :=
  let host := (raw.toList.reverse.dropWhile (· == '.')).reverse
  let labels := host.splitOn '.'
  if host.isEmpty || decide ((String.ofList host).utf8ByteSize > 253) || !host.contains '.' ||
      isIpText host then false
  else if reservedTlds.contains (String.ofList (labels.getLastD [])) then false
  else labels.all fun label =>
    !label.isEmpty && decide ((String.ofList label).utf8ByteSize ≤ 63) &&
      label.head? != some '-' && label.getLast? != some '-' &&
      label.all fun c => c.isAlphanum || c == '-'

section Crates

variable (C : Crates)

/-- A client id is the address of its document, as the URL parser writes it. -/
def validateClientId (raw : String) : Except CimdError (ParsedUrl × String × Nat) :=
  if raw.isEmpty ∨ raw.utf8ByteSize > maxClientIdBytes ∨ ¬"https://".toList.isPrefixOf raw.toList ∨
      backslash ∈ raw.toList ∨ raw.toList.any isControl then .error .invalidUrl
  else
    let afterScheme := raw.toList.drop "https://".length
    let path := (afterScheme.dropWhile (· != '/')).takeWhile fun c => c != '?' && c != '#'
    if '/' ∉ afterScheme then .error .invalidUrl
    else if (path.splitOn '/').any fun segment => segment == ['.'] || segment == ['.', '.'] then
      .error .invalidUrl
    else match C.url raw with
      | none => .error .invalidUrl
      | some url =>
          if url.asStr ≠ raw ∨ url.scheme ≠ "https" ∨ ¬url.username.isEmpty ∨
              url.password.isSome ∨ url.fragment.isSome ∨ url.query.isSome then
            .error .invalidUrl
          else match url.host with
            | none => .error .invalidUrl
            | some (.domain host) =>
                if publicDnsName host then .ok (url, host, url.port.getD 443)
                else .error .unsafeDestination
            | some _ => .error .unsafeDestination

end Crates

inductive IpAddr where
  | v4 (bits : BitVec 32)
  | v6 (bits : BitVec 128)
  deriving DecidableEq

structure SocketAddr where
  ip : IpAddr
  port : Nat
  deriving DecidableEq

/-- `Ipv4Addr::octets`. -/
def octet (v : BitVec 32) (i : Nat) : Nat := v.toNat / 256 ^ (3 - i) % 256

/-- `Ipv6Addr::segments`. -/
def segment (v : BitVec 128) (i : Nat) : Nat := v.toNat / 65536 ^ (7 - i) % 65536

def publicV4 (v : BitVec 32) : Bool :=
  let a := octet v 0
  let b := octet v 1
  let c := octet v 2
  if a = 0 ∨ a = 10 ∨ a = 127 ∨ 224 ≤ a then false
  else if a = 100 then !(64 ≤ b && b ≤ 127)
  else if a = 169 then b != 254
  else if a = 172 then !(16 ≤ b && b ≤ 31)
  else if a = 192 then
    b != 0 && b != 168 && !(b == 2 || (b == 31 && c == 196) || (b == 52 && c == 193) ||
      (b == 88 && c == 99) || (b == 175 && c == 48))
  else if a = 198 then b != 18 && b != 19 && (b != 51 || c != 100)
  else if a = 203 then b != 0 || c != 113
  else true

def publicIp : IpAddr → Bool
  | .v4 v => publicV4 v
  | .v6 v =>
      -- an address that stands for an IPv4 one
      if v.toNat / 2 ^ 32 = 0xffff then false
      else
        let s := segment v
        s 0 &&& 0xe000 == 0x2000 &&
          !(s 0 == 0x2001 && (s 1 ≤ 0x01ff || s 1 == 0x0db8)) && s 0 != 0x2002 &&
          s 0 != 0x3fff && !(s 0 == 0x2620 && s 1 == 0x004f && s 2 == 0x8000)

/-! ## 4. Documents -/

section Documents

variable (C : Crates)

/-- `StrictObject`: a repeated member is refused. -/
def strictObject (body : List UInt8) : Option (List (String × Json)) :=
  (C.members body).filter fun members => decide (members.map (·.1)).Nodup

def safeName (name : String) : Bool :=
  let n := trim name.toList
  !n.isEmpty && n == name.toList && decide (n.length ≤ 128) && !n.any fun c =>
    isControl c || (0x200b ≤ c.toNat && c.toNat ≤ 0x200f) ||
      (0x202a ≤ c.toNat && c.toNat ≤ 0x202e) || (0x2066 ≤ c.toNat && c.toNat ≤ 0x2069) ||
      c == '<' || c == '>' || c == '&'

/-- `cimd::safe_redirect`: a public `https` URL, or a literal loopback one with a port. -/
def safeRedirect (raw : String) : Bool :=
  if raw.isEmpty ∨ raw.utf8ByteSize > 2048 then false
  else match C.url raw with
    | none => false
    | some url =>
        if url.asStr ≠ raw ∨ ¬url.username.isEmpty ∨ url.password.isSome ∨
            url.fragment.isSome then false
        else match url.scheme, url.host with
          | "https", some (.domain host) => publicDnsName host
          | "http", some (.ipv4 ip) => ip == 0x7f000001#32 && url.port.isSome
          | "http", some (.ipv6 ip) => ip == 1#128 && url.port.isSome
          | _, _ => false

/-- `ok_or(CimdError::InvalidDocument)`. -/
def orInvalid {α : Type} (a : Option α) : Except CimdError α :=
  match a with
  | some a => .ok a
  | none => .error .invalidDocument

/-- Whether the listed grant types allow refresh. -/
def readGrants (grants : List Json) : Except CimdError Bool :=
  -- two equal grants: other values than strings are refused below, with the same error
  if grants.isEmpty ∨ grants.length > 2 ∨
      (grants.length = 2 ∧ (grants.map Json.asStr).head? = (grants.map Json.asStr).getLast?) ∨
      (grants.any fun v => v.asStr != some "authorization_code" &&
        v.asStr != some "refresh_token") ∨
      ¬grants.any fun v => v.asStr == some "authorization_code" then .error .invalidDocument
  else .ok (grants.any fun v => v.asStr == some "refresh_token")

/-- The redirect URIs in order, each of them once. -/
def readRedirects (seen : List String) : List Json → Except CimdError (List String)
  | [] => .ok seen
  | item :: rest => do
      let raw ← orInvalid item.asStr
      if !safeRedirect C raw || seen.contains raw then .error .invalidDocument
      else readRedirects (seen ++ [raw]) rest

def validateDocument (clientId : String) (body : List UInt8) :
    Except CimdError ClientMetadataDocument := do
  let obj ← orInvalid (strictObject C body)
  let get := fun key : String => (obj.find? fun m => m.1 = key).map (·.2)
  let id ← orInvalid ((get "client_id").bind Json.asStr)
  let name ← orInvalid ((get "client_name").bind Json.asStr)
  if id ≠ clientId ∨ ¬safeName name then .error .invalidDocument
  else if (get "client_secret").isSome ∨ (get "client_secret_expires_at").isSome ∨
      (get "jwks").isSome ∨ (get "jwks_uri").isSome then .error .invalidDocument
  else if (get "token_endpoint_auth_method").bind Json.asStr ≠ some "none" then
    .error .invalidDocument
  else
    let refreshAllowed ← (get "grant_types").elim (.ok false) fun grants =>
      (orInvalid grants.asArray).bind readGrants
    if ∃ v ∈ get "response_types", ∀ a ∈ v.asArray, a.map Json.asStr ≠ [some "code"] then
      .error .invalidDocument
    else
      let redirects ← orInvalid ((get "redirect_uris").bind Json.asArray)
      if redirects.isEmpty ∨ redirects.length > maxRedirects then .error .invalidDocument
      else
        let redirectUris ← readRedirects C [] redirects
        .ok { clientId := id, clientName := name, redirectUris, refreshAllowed }

end Documents

/-! ## 5. Lifetimes -/

/-- The value of a directive without its quotation marks. -/
def unquote (value : List Char) : List Char :=
  if value.head? = some quote ∧ value.getLast? = some quote ∧ 2 ≤ value.length then
    value.tail.dropLast
  else value

/-- One directive, after the smallest `max-age` so far; `none` refuses the whole header. -/
def readDirective (maximumAge : Option Nat) (directive : List Char) : Option (Option Nat) :=
  if directive = [] ∨ ';' ∈ directive then none
  else
    let equals := '=' ∈ directive
    let name := if equals then trim (directive.takeWhile (· != '=')) else directive
    let value :=
      if equals then some (unquote (trim (directive.dropWhile (· != '=')).tail)) else none
    if name = [] ∨ ¬name.all (fun c => c.isAlphanum || c == '-') then none
    else if ["no-store", "no-cache", "private"].contains (lower name) then none
    else if ∃ v ∈ value, v = [] ∨ quote ∈ v ∨
        ¬v.all (fun c => decide (33 ≤ c.toNat) && decide (c.toNat ≤ 126)) then none
    else if lower name = "max-age" then
      (value.bind parseU64).map fun seconds => some (maximumAge.elim seconds (min · seconds))
    else some maximumAge

/-- The lifetime a response states, in seconds. -/
def cacheTtl (headers : Option (List String)) (responseAge : Nat) : Option Nat := do
  let headers ← headers
  let directives := (headers.flatMap fun field => field.toList.splitOn ',').map trim
  let maximumAge ← directives.foldlM readDirective none
  let ttl := min (← maximumAge) maxCacheTtl
  (if responseAge ≤ ttl then some (ttl - responseAge) else none).filter (· ≠ 0)

/-- **A stated lifetime is positive and at most five minutes.** -/
theorem cacheTtl_le {headers : Option (List String)} {age ttl : Nat}
    (h : cacheTtl headers age = some ttl) : 0 < ttl ∧ ttl ≤ maxCacheTtl := by
  simp only [cacheTtl, Option.bind_eq_bind, Option.bind_eq_some_iff] at h
  obtain ⟨_, _, _, _, maximumAge, _, hfilter⟩ := h
  obtain ⟨hsome, hpos⟩ := Option.filter_eq_some_iff.mp hfilter
  split at hsome
  · obtain rfl := Option.some.inj hsome
    have hmin : min maximumAge maxCacheTtl ≤ maxCacheTtl := Nat.min_le_right ..
    have hne : min maximumAge maxCacheTtl - age ≠ 0 := of_decide_eq_true hpos
    exact ⟨Nat.pos_of_ne_zero hne, le_trans (Nat.sub_le ..) hmin⟩
  · cases hsome

/-! ## 6. Responses -/

structure ResponseDocument where
  status : Nat
  contentType : Option String
  cacheControl : Option (List String)
  age : Nat
  body : List UInt8

def isJsonMime (contentType : String) : Bool :=
  let mime := lower (trim ((contentType.toList.splitOn ';').headD []))
  mime == "application/json" ||
    ("application/".toList.isPrefixOf mime.toList && "+json".toList.isSuffixOf mime.toList)

section Responses

variable (C : Crates)

/-- **The timed part of a fetch**: what becomes of the resolver's answer and the server's. -/
def readResponse (clientId : String) (port : Nat) (resolved : Except CimdError (List SocketAddr))
    (fetched : Except CimdError ResponseDocument) :
    Except CimdError (ClientMetadataDocument × Option Nat) := do
  let addrs ← resolved
  if addrs.isEmpty ∨ addrs.length > 32 ∨
      addrs.any fun addr => addr.port != port || !publicIp addr.ip then
    .error .unsafeDestination
  else
    let response ← fetched
    if response.status ≠ 200 then .error .fetchFailed
    else
      let contentType ← orInvalid response.contentType
      if ¬isJsonMime contentType then .error .invalidDocument
      else if response.body.length > maxDocumentBytes then .error .invalidDocument
      else
        let document ← validateDocument C clientId response.body
        .ok (document, cacheTtl response.cacheControl response.age)

variable {C}

theorem validateDocument_id {clientId : String} {body : List UInt8}
    {document : ClientMetadataDocument} (h : validateDocument C clientId body = .ok document) :
    document.clientId = clientId := by
  obtain ⟨obj, _, h⟩ := bind_ok h
  obtain ⟨id, _, h⟩ := bind_ok h
  obtain ⟨name, _, h⟩ := bind_ok h
  obtain ⟨hsame, h⟩ := ite_ok h
  obtain ⟨_, h⟩ := ite_ok h
  obtain ⟨_, h⟩ := ite_ok h
  obtain ⟨refreshAllowed, _, h⟩ := bind_ok h
  obtain ⟨_, h⟩ := ite_ok h
  obtain ⟨redirects, _, h⟩ := bind_ok h
  obtain ⟨_, h⟩ := ite_ok h
  obtain ⟨redirectUris, _, h⟩ := bind_ok h
  cases h
  exact of_not_not fun hne => hsame (Or.inl hne)

/-- **A document that was read is a validated one of its client**, with the lifetime its
    response states. -/
theorem readResponse_ok {clientId : String} {port : Nat}
    {resolved : Except CimdError (List SocketAddr)} {fetched : Except CimdError ResponseDocument}
    {document : ClientMetadataDocument} {ttl : Option Nat}
    (h : readResponse C clientId port resolved fetched = .ok (document, ttl)) :
    ∃ response, fetched = .ok response ∧
      validateDocument C clientId response.body = .ok document ∧
      cacheTtl response.cacheControl response.age = ttl := by
  obtain ⟨addrs, _, h⟩ := bind_ok h
  obtain ⟨_, h⟩ := ite_ok h
  obtain ⟨response, hresponse, h⟩ := bind_ok h
  obtain ⟨_, h⟩ := ite_ok h
  obtain ⟨contentType, _, h⟩ := bind_ok h
  obtain ⟨_, h⟩ := ite_ok h
  obtain ⟨_, h⟩ := ite_ok h
  obtain ⟨d, hvalid, h⟩ := bind_ok h
  cases h
  exact ⟨response, hresponse, hvalid, rfl⟩

end Responses

end Cimd

end Eri
