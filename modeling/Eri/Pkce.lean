/-
  File:      Eri/Pkce.lean
  Subject:   PKCE with S256: verifiers, challenges and unpadded base64url (src/oauth.rs).

  The base64 engine is `URL_SAFE_NO_PAD`: no padding is written or accepted, and a decoder
  refuses a last symbol with bits that belong to no byte.
-/
import Eri.Base
import Mathlib.Data.FinEnum

namespace Eri

/-! ## 1. Unpadded base64url -/

namespace Base64Url

/-- The symbol of a six-bit value: letters, digits, `-` and `_`. -/
def symbol (n : Nat) : Char :=
  if n < 26 then Char.ofNat (65 + n)
  else if n < 52 then Char.ofNat (71 + n)
  else if n < 62 then Char.ofNat (n - 4)
  else if n = 62 then '-' else '_'

/-- The six-bit value of a symbol. -/
def value (c : Char) : Option Nat :=
  let n := c.toNat
  if 65 ≤ n ∧ n ≤ 90 then some (n - 65)
  else if 97 ≤ n ∧ n ≤ 122 then some (n - 71)
  else if 48 ≤ n ∧ n ≤ 57 then some (n + 4)
  else if n = 45 then some 62
  else if n = 95 then some 63 else none

def encode : List UInt8 → List Char
  | [] => []
  | [a] => [symbol (a.toNat / 4), symbol (a.toNat % 4 * 16)]
  | [a, b] =>
      [symbol (a.toNat / 4), symbol (a.toNat % 4 * 16 + b.toNat / 16),
       symbol (b.toNat % 16 * 4)]
  | a :: b :: c :: rest =>
      symbol (a.toNat / 4) :: symbol (a.toNat % 4 * 16 + b.toNat / 16) ::
        symbol (b.toNat % 16 * 4 + c.toNat / 64) :: symbol (c.toNat % 64) :: encode rest

def decode : List Char → Option (List UInt8)
  | [] => some []
  | [_] => none
  | [w, x] => do
      let w ← value w
      let x ← value x
      if x % 16 = 0 then some [UInt8.ofNat (w * 4 + x / 16)] else none
  | [w, x, y] => do
      let w ← value w
      let x ← value x
      let y ← value y
      if y % 4 = 0 then
        some [UInt8.ofNat (w * 4 + x / 16), UInt8.ofNat (x % 16 * 16 + y / 4)]
      else none
  | w :: x :: y :: z :: rest => do
      let w ← value w
      let x ← value x
      let y ← value y
      let z ← value z
      let tail ← decode rest
      some (UInt8.ofNat (w * 4 + x / 16) :: UInt8.ofNat (x % 16 * 16 + y / 4) ::
        UInt8.ofNat (y % 4 * 64 + z) :: tail)

end Base64Url

/-! ## 2. Verifiers and challenges -/

/-- `oauth::OAuthError`. -/
inductive OAuthError where
  | metadataExpired
  | invalidClientDeclaration
  | unknownClient
  | unsupportedResponseType
  | unsupportedPkceMethod
  | invalidPkce
  | invalidRedirect
  | invalidScope
  | invalidResource
  | consentRequired
  deriving DecidableEq

def isAsciiAlphanumeric (b : UInt8) : Bool :=
  (48 ≤ b && b ≤ 57) || (65 ≤ b && b ≤ 90) || (97 ≤ b && b ≤ 122)

/-- The bytes of `-`, `.`, `_` and `~`. -/
def isUnreservedMark (b : UInt8) : Bool := b == 45 || b == 46 || b == 95 || b == 126

def validatePkceVerifier (value : String) : Except OAuthError Unit :=
  if (43 ≤ (utf8 value).length ∧ (utf8 value).length ≤ 128) ∧
      ∀ b ∈ utf8 value, isAsciiAlphanumeric b || isUnreservedMark b then .ok ()
  else .error .invalidPkce

def validatePkceChallenge (value : String) : Except OAuthError Unit :=
  if (utf8 value).length ≠ 43 ∨
      ¬∀ b ∈ utf8 value, isAsciiAlphanumeric b || (b == 45 || b == 95) then
    .error .invalidPkce
  else
    match Base64Url.decode value.toList with
    | some decoded =>
        if decoded.length = 32 ∧ Base64Url.encode decoded = value.toList then .ok ()
        else .error .invalidPkce
    | none => .error .invalidPkce

variable (P : Platform)

def s256Challenge (verifier : String) : Except OAuthError String := do
  validatePkceVerifier verifier
  return String.ofList (Base64Url.encode (P.digest (utf8 verifier)).toList)

def verifyS256 (verifier expected : String) : Bool :=
  match s256Challenge P verifier with
  | .ok actual => (validatePkceChallenge expected).isOk && actual == expected
  | .error _ => false

end Eri
