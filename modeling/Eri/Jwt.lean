/-
  File:      Eri/Jwt.lean
  Subject:   Signed tokens: what the JWT crate is asked for and what it promises, and the claims
             of access and ID tokens (src/tokens.rs).

  Signing is a scheme of the crates: a token that was encoded with a private key can be decoded
  with the public key that belongs to it, and with no other.

  * `Validation`, `Validation.Accepts` -- what a verifier asks of the claims;
  * `KeyCrates`, `KeyCrates.Lawful` -- the crates, and what the code relies on;
  * `AccessClaims`, `IdTokenClaims` -- the claims and their JSON, with `ofJson_toJson`.
-/
import Eri.Json
import Eri.Logout
import Mathlib.Data.Nat.Size

namespace Eri

/-! ## 1. What a verifier asks -/

inductive Algorithm where
  | rs256
  | other
  deriving DecidableEq

/-- `jsonwebtoken::Header`, as far as it is written and read. -/
structure JwtHeader where
  alg : Algorithm
  typ : Option String
  kid : Option String
  deriving DecidableEq

/-- `jsonwebtoken::Validation`. -/
structure Validation where
  algorithms : List Algorithm
  issuer : Option (List String)
  audience : Option (List String)
  validateAud : Bool
  validateExp : Bool
  required : List String
  leeway : Nat

/-- `Validation::new`. -/
def Validation.new (alg : Algorithm) : Validation where
  algorithms := [alg]
  issuer := none
  audience := none
  validateAud := true
  validateExp := true
  required := ["exp"]
  leeway := 60

/-- A string, or a list of strings. -/
def Json.strings : Json → Option (List String)
  | .str s => some [s]
  | .arr items => items.mapM fun
      | .str s => some s
      | _ => none
  | _ => none

/-- A number of seconds since the epoch. -/
def Json.seconds : Json → Option Nat
  | .num (.ofNat n) => some n
  | _ => none

def Json.asText : Json → Option String
  | .str s => some s
  | _ => none

/-- A registered claim is there, with a value of its type. -/
def Json.Claims (ms : List (String × Json)) (name : String) : Bool :=
  match name with
  | "exp" | "nbf" => ((Json.member ms name).bind Json.seconds).isSome
  | "sub" => ((Json.member ms name).bind Json.asText).isSome
  | "iss" | "aud" => ((Json.member ms name).bind Json.strings).isSome
  | _ => true

/-- **The claims of a token pass**, at `now` in seconds since the epoch. -/
structure Validation.Accepts (v : Validation) (now : Nat) (ms : List (String × Json)) : Prop where
  required : ∀ name ∈ v.required, Json.Claims ms name = true
  unexpired : v.validateExp = true → ∀ n ∈ (Json.member ms "exp").bind Json.seconds,
    now ≤ n + v.leeway
  issuer : ∀ allowed ∈ v.issuer, ∀ iss ∈ (Json.member ms "iss").bind Json.strings,
    ∃ s ∈ iss, s ∈ allowed
  audience : v.validateAud = true → ∀ aud ∈ (Json.member ms "aud").bind Json.strings,
    ∃ allowed ∈ v.audience, ∃ s ∈ aud, s ∈ allowed

instance (v : Validation) (now : Nat) (ms : List (String × Json)) : Decidable (v.Accepts now ms) :=
  decidable_of_iff
    ((∀ name ∈ v.required, Json.Claims ms name = true) ∧
      (v.validateExp = true → ∀ n ∈ (Json.member ms "exp").bind Json.seconds,
        now ≤ n + v.leeway) ∧
      (∀ allowed ∈ v.issuer, ∀ iss ∈ (Json.member ms "iss").bind Json.strings,
        ∃ s ∈ iss, s ∈ allowed) ∧
      (v.validateAud = true → ∀ aud ∈ (Json.member ms "aud").bind Json.strings,
        ∃ allowed ∈ v.audience, ∃ s ∈ aud, s ∈ allowed))
    ⟨fun ⟨required, unexpired, issuer, audience⟩ => ⟨required, unexpired, issuer, audience⟩,
      fun h => ⟨h.required, h.unexpired, h.issuer, h.audience⟩⟩

/-! ## 2. The crates -/

/-- `rsa::RsaPublicKey`: its modulus and its exponent. -/
structure RsaPublicKey where
  n : Nat
  e : Nat
  deriving DecidableEq

/-- `rsa`, `jsonwebtoken` and `uuid`. A decoding key of the JWT crate stands for the public key
    it verifies with, an encoding key for the private one it signs with; `firstSegment` is the
    JSON of the part of a token before the first dot. -/
structure KeyCrates where
  PrivateKey : Type
  toPublicKey : PrivateKey → RsaPublicKey
  pkcs8Private : String → Option PrivateKey
  pkcs1Private : String → Option PrivateKey
  publicKeyPem : String → Option RsaPublicKey
  pkcs1Public : String → Option RsaPublicKey
  encodingKey : List UInt8 → Option PrivateKey
  decodingKey : List UInt8 → Option RsaPublicKey
  encode : JwtHeader → Json → PrivateKey → Option String
  decodeHeader : String → Option JwtHeader
  firstSegment : String → Option Json
  decode : String → RsaPublicKey → Validation → Nat → Option Json
  uuidText : Uuid → String
  uuidOf : String → Option Uuid

namespace KeyCrates

variable (K : KeyCrates)

/-- `rsa::RsaPrivateKey::from_pkcs8_pem`, or else `from_pkcs1_pem`. -/
def privateOf (text : String) : Option K.PrivateKey :=
  (K.pkcs8Private text).or (K.pkcs1Private text)

def publicOf (text : String) : Option RsaPublicKey := (K.publicKeyPem text).or (K.pkcs1Public text)

/-- **What the code relies on**: both crates read the same key from a file, a token holds what
    was encoded, it can be decoded with the key it was signed under and with no other, and an
    id has a text. -/
structure Lawful : Prop where
  samePrivate : ∀ text key key', K.encodingKey (utf8 text) = some key →
    K.privateOf text = some key' → key = key'
  samePublic : ∀ text key key', K.decodingKey (utf8 text) = some key →
    K.publicOf text = some key' → key = key'
  header : ∀ header claims key token, K.encode header claims key = some token →
    K.decodeHeader token = some header
  segment : ∀ header claims key token, K.encode header claims key = some token →
    ∃ ms, K.firstSegment token = some (.obj ms) ∧ ∀ m ∈ ms, m.1 ≠ "crit"
  decode : ∀ header ms key token, K.encode header (.obj ms) key = some token →
    ∀ key' v now claims, K.decode token key' v now = some claims ↔
      key' = K.toPublicKey key ∧ header.alg ∈ v.algorithms ∧ v.Accepts now ms ∧ claims = .obj ms
  uuid : ∀ u, K.uuidOf (K.uuidText u) = some u
  uuidText : ∀ u, K.uuidText u ≠ ""

end KeyCrates

/-! ## 3. Claims -/

/-- `tokens::AccessClaims`. -/
structure AccessClaims where
  iss : String
  sub : Uuid
  aud : List String
  exp : Int
  iat : Int
  jti : String
  clientId : String
  scope : String

/-- `tokens::IdClaims`, whole. -/
structure IdTokenClaims extends IdClaims where
  iss : String
  nonce : Option String
  authTime : Option Int

namespace Json

def asInt : Json → Option Int
  | .num n => some n
  | _ => none

/-- A string, or `null`. -/
def ofText : Option String → Json
  | some s => .str s
  | none => .null

def ofInt : Option Int → Json
  | some n => .num n
  | none => .null

end Json

section Claims

variable (K : KeyCrates)

/-- What `serde` writes for the claims. -/
def AccessClaims.members (c : AccessClaims) : List (String × Json) :=
  [("iss", .str c.iss), ("sub", .str (K.uuidText c.sub)), ("aud", .arr (c.aud.map .str)),
   ("exp", .num c.exp), ("iat", .num c.iat), ("jti", .str c.jti), ("client_id", .str c.clientId),
   ("scope", .str c.scope)]

def AccessClaims.toJson (c : AccessClaims) : Json := .obj (c.members K)

/-- And what it reads: other members are ignored. -/
def AccessClaims.ofJson : Json → Option AccessClaims
  | .obj ms => do
      let iss ← (Json.member ms "iss").bind Json.asText
      let sub ← ((Json.member ms "sub").bind Json.asText).bind K.uuidOf
      let aud ← match Json.member ms "aud" with
        | some (.arr items) => items.mapM Json.asText
        | _ => none
      let exp ← (Json.member ms "exp").bind Json.asInt
      let iat ← (Json.member ms "iat").bind Json.asInt
      let jti ← (Json.member ms "jti").bind Json.asText
      let clientId ← (Json.member ms "client_id").bind Json.asText
      let scope ← (Json.member ms "scope").bind Json.asText
      some ⟨iss, sub, aud, exp, iat, jti, clientId, scope⟩
  | _ => none

/-- A `sid` that is not there is not written. -/
def IdTokenClaims.members (c : IdTokenClaims) : List (String × Json) :=
  (c.sid.map fun sid => ("sid", Json.str (K.uuidText sid))).toList ++
    [("iss", .str c.iss), ("sub", .str (K.uuidText c.sub)), ("aud", .str c.aud),
     ("exp", .num c.exp), ("iat", .num c.iat), ("nonce", .ofText c.nonce),
     ("auth_time", .ofInt c.authTime)]

def IdTokenClaims.toJson (c : IdTokenClaims) : Json := .obj (c.members K)

/-- A member that may be left out or `null`. -/
def Json.optional {α : Type} (ms : List (String × Json)) (name : String) (read : Json → Option α) :
    Option (Option α) :=
  match ms.filter (·.1 = name) with
  | [] => some none
  | [(_, .null)] => some none
  | [(_, v)] => (read v).map some
  | _ => none

def IdTokenClaims.ofJson : Json → Option IdTokenClaims
  | .obj ms => do
      let sid ← Json.optional ms "sid" fun v => v.asText.bind K.uuidOf
      let iss ← (Json.member ms "iss").bind Json.asText
      let sub ← ((Json.member ms "sub").bind Json.asText).bind K.uuidOf
      let aud ← (Json.member ms "aud").bind Json.asText
      let exp ← (Json.member ms "exp").bind Json.asInt
      let iat ← (Json.member ms "iat").bind Json.asInt
      let nonce ← Json.optional ms "nonce" Json.asText
      let authTime ← Json.optional ms "auth_time" Json.asInt
      some ⟨⟨sid, sub, aud, exp, iat⟩, iss, nonce, authTime⟩
  | _ => none

variable {K}

theorem mapM_asText (l : List String) : l.mapM (Json.asText ∘ Json.str) = some l := by
  induction l with
  | nil => rfl
  | cons s l ih =>
      rw [List.mapM_cons, ih]
      rfl

/-- **Claims read back as they were written.** -/
theorem AccessClaims.ofJson_toJson (hK : K.Lawful) (c : AccessClaims) :
    AccessClaims.ofJson K (c.toJson K) = some c := by
  simp [AccessClaims.toJson, AccessClaims.members, AccessClaims.ofJson, Json.member, Json.asText,
    Json.asInt, hK.uuid, mapM_asText]

theorem IdTokenClaims.ofJson_toJson (hK : K.Lawful) (c : IdTokenClaims) :
    IdTokenClaims.ofJson K (c.toJson K) = some c := by
  obtain ⟨⟨sid, sub, aud, exp, iat⟩, iss, nonce, authTime⟩ := c
  cases sid <;> cases nonce <;> cases authTime <;>
    simp [IdTokenClaims.toJson, IdTokenClaims.members, IdTokenClaims.ofJson, Json.member,
      Json.optional, Json.asText, Json.asInt, Json.ofText, Json.ofInt, hK.uuid]

end Claims

end Eri
