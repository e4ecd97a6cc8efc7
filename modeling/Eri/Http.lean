/-
  File:      Eri/Http.lean
  Subject:   Requests and responses (src/web.rs, the helpers of the handlers): parameters,
             headers, cookies, and the pages a handler answers with.

  Text is read as lists of characters, header values and bodies as bytes.

  * `pairs`, `one`, `required`, `optional` -- parameters;
  * `cookie`, `transactionCookies`, `transactionCookieCount` -- the three readings of the
    `Cookie` headers;
  * `Page`, `Response` -- what is answered; `Page.client` is where the browser is sent.
-/
import Eri.Browser
import Eri.Documents

namespace Eri

/-! ## 1. Crates -/

/-- `form_urlencoded::parse` and `Serializer`, and `Url::parse` with `query_pairs_mut`. -/
structure HttpCrates extends Platform where
  formParse : List UInt8 → List (String × String)
  formSerialize : List (String × String) → String
  appendPairs : String → List (String × String) → Option String

namespace Web

/-! ## 2. Parameters -/

/-- `u8::is_ascii_hexdigit`. -/
def isHexByte (b : UInt8) : Bool :=
  (48 ≤ b && b ≤ 57) || (65 ≤ b && b ≤ 70) || (97 ≤ b && b ≤ 102)

/-- Every percent sign starts an escape. -/
def validPercent : List UInt8 → Bool
  | [] => true
  | b :: rest =>
      if b = 37 then
        match rest with
        | x :: y :: rest => isHexByte x && isHexByte y && validPercent rest
        | _ => false
      else validPercent rest

section Pairs

variable (C : HttpCrates)

def pairs (raw : String) (max : Nat) : Option (List (String × String)) :=
  if raw.utf8ByteSize > max ∨ !validPercent (utf8 raw) then none
  else
    let v := C.formParse (utf8 raw)
    if v.length > 32 ∨ v.any (fun e => e.1.utf8ByteSize > 128 || e.2.utf8ByteSize > 2048) then
      none
    else some v

/-- `String::from_utf8`. -/
def fromUtf8 (body : List UInt8) : Option String := String.fromUTF8? ⟨body.toArray⟩

theorem fromUtf8_eq {bytes : List UInt8} {text : String} (h : fromUtf8 bytes = some text) :
    bytes = utf8 text := by
  simp only [fromUtf8, String.fromUTF8?] at h
  split at h
  · cases h
    simp [utf8, String.fromUTF8]
  · cases h

@[simp] theorem fromUtf8_utf8 (text : String) : fromUtf8 (utf8 text) = some text := by
  have hbytes : ByteArray.mk (utf8 text).toArray = text.toByteArray := by simp [utf8]
  rw [fromUtf8, hbytes, String.fromUTF8?, dif_pos text.isValidUTF8]
  rfl

def pairsBytes (body : List UInt8) (max : Nat) : Option (List (String × String)) := do
  pairs C (← fromUtf8 body) max

end Pairs

/-- The value of a parameter given exactly once. -/
def one (q : List (String × String)) (name : String) : Option String :=
  match q.filter fun e => e.1 = name with
  | [e] => some e.2
  | _ => none

def required (q : List (String × String)) (name : String) : Except String String :=
  match (one q name).filter fun v => !v.isEmpty with
  | some v => .ok v
  | none => .error "invalid_request"

def optional (q : List (String × String)) (name : String) : Except String (Option String) :=
  if (q.filter fun e => e.1 = name).length > 1 then .error "invalid_request" else .ok (one q name)

/-! ## 3. Text -/

/-- `str::split_once`. -/
def splitOnce (sep : Char) (s : List Char) : Option (List Char × List Char) :=
  if sep ∈ s then some (s.takeWhile (· != sep), (s.dropWhile (· != sep)).tail) else none

/-- The value of a hexadecimal digit. -/
def hexValue (c : Char) : Option Nat :=
  let n := c.toNat
  if 48 ≤ n ∧ n ≤ 57 then some (n - 48)
  else if 65 ≤ n ∧ n ≤ 70 then some (n - 55)
  else if 97 ≤ n ∧ n ≤ 102 then some (n - 87) else none

/-- 32 hexadecimal digits. -/
def parseSimple (s : List Char) : Option Uuid :=
  if s.length = 32 then (s.mapM hexValue).map fun ds => ds.foldl (fun n d => n * 16 + d) 0
  else none

/-- The digits in groups of 8, 4, 4, 4 and 12. -/
def parseHyphenated (s : List Char) : Option Uuid :=
  if (s.splitOn '-').map List.length = [8, 4, 4, 4, 12] then parseSimple (s.splitOn '-').flatten
  else none

/-- `Uuid::parse_str`: digits alone, in groups, in groups and braces, or as a URN. -/
def parseUuid (s : List Char) : Option Uuid :=
  if s.length = 32 then parseSimple s
  else if s.length = 36 then parseHyphenated s
  else if s.length = 38 ∧ s.head? = some (Char.ofNat 123) ∧ s.getLast? = some (Char.ofNat 125) then
    parseHyphenated s.tail.dropLast
  else if s.length = 45 then (stripPrefix "urn:uuid:" s).bind parseHyphenated
  else none

/-! ## 4. Headers -/

/-- The header fields of a request, in order, under lower-case names. -/
abbrev HeaderMap : Type := List (String × List UInt8)

def getAll (h : HeaderMap) (name : String) : List (List UInt8) :=
  (h.filter fun e => e.1 = name).map (·.2)

/-- `HeaderValue::to_str`: visible ASCII, spaces and tabs. -/
def toStr (value : List UInt8) : Option (List Char) :=
  if value.all fun b => b == 9 || (32 ≤ b && b ≤ 126) then
    some (value.map fun b => Char.ofNat b.toNat)
  else none

/-- `origin`; two of them, or an unreadable one, are none that any issuer has. -/
def origin (h : HeaderMap) : Option String :=
  match getAll h "origin" with
  | [] => none
  | [value] => some ((toStr value).elim "\x00" String.ofList)
  | _ => some "\x00"

def sameOrigin (h : HeaderMap) (issuer : String) : Bool := (origin h).all fun v => v = issuer

/-! ## 5. Cookies -/

def sessionCookie (secure : Bool) : String :=
  if secure then "__Host-eri_session" else "eri_dev_session"

def txPrefix (secure : Bool) : String := if secure then "__Host-eri_tx_" else "eri_tx_"

def txCookie (id : Uuid) (secure : Bool) : String := txPrefix secure ++ id.toText

/-- `name=value`. -/
def cookiePart (part : List Char) : Option (List Char × List Char) :=
  splitOnce '=' (Cimd.trim part)

/-- The parts of one field up to the 32nd, after what was found so far; `none` gives up. -/
def scanParts (name : String) : Option (List Char) → List (List Char) →
    Option (Option (List Char))
  | found, [] => some found
  | found, part :: parts => do
      let (k, v) ← cookiePart part
      if String.ofList k = name then
        if found.isSome ∨ v.length > 512 then none else scanParts name (some v) parts
      else scanParts name found parts

/-- The fields one after the other. -/
def scanFields (name : String) : Option (List Char) → List (List UInt8) →
    Option (Option (List Char))
  | found, [] => some found
  | found, value :: values => do
      let text ← toStr value
      if text.length > 4096 then none
      else
        let found ← scanParts name found ((text.splitOn ';').take 32)
        scanFields name found values

def cookie (h : HeaderMap) (name : String) : Option String :=
  (scanFields name none (getAll h "cookie")).join.map String.ofList

/-- All `name=value` parts of all readable `Cookie` fields. -/
def cookieParts (h : HeaderMap) : List (List Char × List Char) :=
  (((getAll h "cookie").filterMap toStr).flatMap fun text => text.splitOn ';').filterMap cookiePart

/-- The prefix of a transaction cookie and the text of a UUID. -/
def isTxName (secure : Bool) (name : List Char) : Bool :=
  (stripPrefix (txPrefix secure) name).any fun id => (parseUuid id).isSome

def transactionCookies (h : HeaderMap) (secure : Bool) : List (String × String) :=
  let values := ((cookieParts h).filter fun e =>
    isTxName secure e.1 && decide (e.2.length ≤ 512)).map fun e =>
      (String.ofList e.1, String.ofList e.2)
  if values.length > 4 ∨ (values.map (·.1)).dedup.length ≠ values.length then [] else values

def transactionCookieCount (h : HeaderMap) (secure : Bool) : Nat :=
  ((cookieParts h).filter fun e => isTxName secure e.1).length

/-! ## 6. Responses -/

/-- A `Set-Cookie` header; all of them say `Path=/; HttpOnly; SameSite=Lax`. -/
structure SetCookie where
  name : String
  value : String
  maxAge : Option Nat
  secure : Bool
  deriving DecidableEq

/-- What a handler answers with: a local error, a redirect to a client, the document that ends
    a consent form, a redirect to Google, and the two forms. -/
inductive Page where
  | localError (message : String)
  | redirect (base : String) (items : List (String × Option String))
  | consentReturn (base : String) (items : List (String × Option String))
  | upstream (url : String)
  | login (clientName : String) (scopes : List String) (resource : String) (id : Uuid)
      (state upstream redirectUri : String)
  | consent (view : ConsentView)

structure Response where
  page : Page
  setCookies : List SetCookie

/-- The client's URI the browser is sent to, and the parameters it takes there. -/
def Page.client : Page → Option (String × List (String × Option String))
  | .redirect base items | .consentReturn base items => some (base, items)
  | _ => none

def redirectUrl (C : HttpCrates) (base : String) (items : List (String × Option String)) :
    String :=
  let q := C.formSerialize (items.filterMap fun e => e.2.map fun v => (e.1, v))
  if q.isEmpty then base
  else base ++ (if '?' ∈ base.toList then "&" else "?") ++ q

/-- The URL the browser is sent to. -/
def Page.target (C : HttpCrates) (page : Page) : Option String :=
  page.client.map fun e => redirectUrl C e.1 e.2

def localError (message : String) : Response := ⟨.localError message, []⟩

def oauthRedirect (base : String) (state : Option String) (issuer error : String) : Response :=
  ⟨.redirect base [("error", some error), ("state", state), ("iss", some issuer)], []⟩

def codeRedirect (base : String) (state : Option String) (issuer code : String) : Response :=
  ⟨.redirect base [("code", some code), ("state", state), ("iss", some issuer)], []⟩

/-- `consent_return`: for a native scheme the redirect, else a document that ends the form. -/
def consentReturn (C : HttpCrates) (base : String) (items : List (String × Option String)) :
    Response :=
  if (C.parse base).any fun url => url.scheme = "http" || url.scheme = "https" then
    ⟨.consentReturn base items, []⟩
  else ⟨.redirect base items, []⟩

/-- `headers_mut().insert(SET_COOKIE, …)`. -/
def Response.insertCookie (r : Response) (c : SetCookie) : Response := { r with setCookies := [c] }

def clearTransactionCookie (r : Response) (name : Option String) (secure : Bool) : Response :=
  match name with
  | some name => { r with setCookies := r.setCookies ++ [⟨name, "", some 0, secure⟩] }
  | none => r

@[simp] theorem localError_client (m : String) : (localError m).page.client = none := rfl

@[simp] theorem clearTransactionCookie_page (r : Response) (name : Option String) (secure : Bool) :
    (clearTransactionCookie r name secure).page = r.page := by
  cases name <;> rfl

@[simp] theorem insertCookie_page (r : Response) (c : SetCookie) :
    (r.insertCookie c).page = r.page := rfl

/-- Either way the browser is sent to the base. -/
@[simp] theorem consentReturn_client (C : HttpCrates) (base : String)
    (items : List (String × Option String)) :
    (consentReturn C base items).page.client = some (base, items) := by
  unfold consentReturn
  split <;> rfl

@[simp] theorem consentReturn_cookies (C : HttpCrates) (base : String)
    (items : List (String × Option String)) : (consentReturn C base items).setCookies = [] := by
  unfold consentReturn
  split <;> rfl

end Web

end Eri
