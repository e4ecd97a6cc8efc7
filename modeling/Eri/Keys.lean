/-
  File:      Eri/Keys.lean
  Subject:   Signing keys: the manifest, the key set that is published and the tokens that are
             signed and verified with it (src/keys.rs).

  A load walks over the entries of the manifest and keeps four collections side by side: the ids
  and the key material seen so far, the keys to verify with, and the keys to publish.

  * `Collected.Holds` -- what the collections hold after some entries; kept by `addPublic_holds`;
  * `load_entries` -- what a load that succeeded has read;
  * `verify_iff` -- a token verifies under its own key and no other;
  * `key_rotation` -- **a key set is sound, and a rotation keeps the tokens it lists**.
-/
import Eri.Http
import Eri.Jwt
import Mathlib.Data.FinEnum
import Mathlib.Data.List.AList
import Mathlib.Data.Nat.Digits.Lemmas

namespace Eri

open Web (fromUtf8 fromUtf8_eq fromUtf8_utf8)

/-! ## 1. Ids, sizes and bytes -/

/-- `keys::KeyError`, with the texts of `KeyError::Invalid`. -/
inductive KeyError where
  | io
  | manifest
  | invalid (message : String)
  | jwt
  deriving DecidableEq

/-- A crate's answer, or its error. -/
def orError {α : Type} (e : KeyError) : Option α → Except KeyError α
  | some a => .ok a
  | none => .error e

/-- `BigUint::to_bytes_be`. -/
def toBytesBe (n : Nat) : List UInt8 :=
  if n = 0 then [0] else ((Nat.digits 256 n).map UInt8.ofNat).reverse

def validateSize (bits : Nat) : Except KeyError Unit :=
  if bits < 2048 then .error (.invalid "RSA keys must be at least 2048 bits") else .ok ()

def checkKid (kid : String) : Except KeyError Unit :=
  if kid.isEmpty ∨ (utf8 kid).length > 128 ∨
      ¬∀ c ∈ utf8 kid, isAsciiAlphanumeric c || (c == 45 || c == 95 || c == 46) then
    .error (.invalid "kid must be a stable 1-128 character identifier")
  else .ok ()

/-! ## 2. The manifest and its files -/

structure ActiveKey where
  kid : String
  privateKey : String
  publicKey : String

structure PublicKey where
  kid : String
  publicKey : String

structure Manifest where
  active : ActiveKey
  previous : List PublicKey
  next : List PublicKey

/-- Every key the manifest publishes: the active one, the previous ones, the next ones. -/
def Manifest.entries (m : Manifest) : List PublicKey :=
  ⟨m.active.kid, m.active.publicKey⟩ :: (m.previous ++ m.next)

def Manifest.kids (m : Manifest) : List String := m.entries.map PublicKey.kid

structure FileMetadata where
  isFile : Bool
  mode : Nat

/-- The files as a load finds them, under the paths the manifest writes, and the manifest as
    `serde_json` reads it from its text. -/
structure KeyFiles where
  manifestText : Option String
  manifestOf : String → Option Manifest
  metadata : String → Option FileMetadata
  read : String → Option (List UInt8)

/-- The manifest that is found. -/
def KeyFiles.manifest (files : KeyFiles) : Option Manifest :=
  files.manifestText.bind files.manifestOf

def checkPrivatePermissions (metadata : FileMetadata) : Except KeyError Unit :=
  if metadata.mode &&& 0o077 ≠ 0 then
    .error (.invalid "private key permissions permit group or other access")
  else .ok ()

def readPrivateKey (files : KeyFiles) (path : String) : Except KeyError (List UInt8) := do
  let metadata ← orError .io (files.metadata path)
  if !metadata.isFile then .error (.invalid "private key must be a regular file")
  else do
    checkPrivatePermissions metadata
    orError .io (files.read path)

section Parse

variable (K : KeyCrates)

def parsePrivate (pem : List UInt8) : Except KeyError K.PrivateKey := do
  let text ← orError (.invalid "private key is not UTF-8 PEM") (fromUtf8 pem)
  orError (.invalid "private key is malformed") (K.privateOf text)

def parsePublic (pem : List UInt8) : Except KeyError RsaPublicKey := do
  let text ← orError (.invalid "public key is not UTF-8 PEM") (fromUtf8 pem)
  orError (.invalid "public key is malformed") (K.publicOf text)

/-- The key in a file, if there is one. -/
def privateAt (files : KeyFiles) (path : String) : Option K.PrivateKey :=
  ((files.read path).bind fromUtf8).bind K.privateOf

def publicAt (files : KeyFiles) (path : String) : Option RsaPublicKey :=
  ((files.read path).bind fromUtf8).bind K.publicOf

end Parse

/-! ## 3. Collecting the public keys -/

structure Jwk where
  kty : String
  use : String
  alg : String
  kid : String
  n : String
  e : String
  deriving DecidableEq

structure JwkSet where
  keys : List Jwk

def base64Bytes (n : Nat) : String := String.ofList (Base64Url.encode (toBytesBe n))

def Jwk.ofKey (kid : String) (key : RsaPublicKey) : Jwk where
  kty := "RSA"
  use := "sig"
  alg := "RS256"
  kid := kid
  n := base64Bytes key.n
  e := base64Bytes key.e

/-- A map from ids to the keys that verify. -/
abbrev KeyMap := AList fun _ : String => RsaPublicKey

/-- The collections of a load. -/
structure Collected where
  seen : Finset String
  seenMaterial : Finset (List UInt8 × List UInt8)
  decoding : KeyMap
  jwks : List Jwk

def Collected.empty : Collected := ⟨∅, ∅, ∅, []⟩

def RsaPublicKey.material (key : RsaPublicKey) : List UInt8 × List UInt8 :=
  (toBytesBe key.n, toBytesBe key.e)

section Load

variable (K : KeyCrates)

def addPublic (kid : String) (key : RsaPublicKey) (pem : List UInt8) (c : Collected) :
    Except KeyError Collected :=
  if kid ∈ c.seen then .error (.invalid "duplicate kid")
  else do
    validateSize key.n.size
    if key.material ∈ c.seenMaterial then .error (.invalid "duplicate public key material")
    else do
      let decodingKey ← orError .jwt (K.decodingKey pem)
      return ⟨Insert.insert kid c.seen, Insert.insert key.material c.seenMaterial,
        c.decoding.insert kid decodingKey, c.jwks ++ [Jwk.ofKey kid key]⟩

/-- One turn of the loop over the previous and next keys. -/
def addEntry (files : KeyFiles) (c : Collected) (entry : PublicKey) :
    Except KeyError Collected := do
  checkKid entry.kid
  let pem ← orError .io (files.read entry.publicKey)
  let key ← parsePublic K pem
  addPublic K entry.kid key pem c

/-- `keys::SigningKeys`; the key set it publishes is kept as the value that is written. -/
structure SigningKeys where
  activeKid : String
  encoding : K.PrivateKey
  decoding : KeyMap
  jwks : JwkSet

def load (files : KeyFiles) : Except KeyError (SigningKeys K) := do
  let text ← orError .io files.manifestText
  let manifest ← orError .manifest (files.manifestOf text)
  checkKid manifest.active.kid
  let privatePem ← readPrivateKey files manifest.active.privateKey
  let key ← parsePrivate K privatePem
  validateSize (K.toPublicKey key).n.size
  let activePublicPem ← orError .io (files.read manifest.active.publicKey)
  let activePublic ← parsePublic K activePublicPem
  if K.toPublicKey key ≠ activePublic then
    .error (.invalid "active private and public keys do not match")
  else do
    let active ← addPublic K manifest.active.kid activePublic activePublicPem .empty
    let all ← (manifest.previous ++ manifest.next).foldlM (addEntry K files) active
    let encoding ← orError .jwt (K.encodingKey privatePem)
    return ⟨manifest.active.kid, encoding, all.decoding, ⟨all.jwks⟩⟩

end Load

/-! ## 4. Tokens -/

section Tokens

variable {K : KeyCrates} (keys : SigningKeys K)

def signTyped (claims : Json) (tokenType : String) : Except KeyError String :=
  orError .jwt (K.encode ⟨.rs256, some tokenType, some keys.activeKid⟩ claims keys.encoding)

def sign (claims : Json) : Except KeyError String := signTyped keys claims "at+jwt"

def signId (claims : Json) : Except KeyError String := signTyped keys claims "JWT"

/-- `has_unsupported_crit`. -/
def hasUnsupportedCrit (K : KeyCrates) (token : String) : Bool :=
  match K.firstSegment token with
  | some (.obj ms) =>
      match (ms.reverse.find? (·.1 = "crit")).map Prod.snd with
      | some (.arr items) => !items.isEmpty
      | some _ => true
      | none => false
  | _ => false

/-- The key of a token of the wanted type. -/
def headerKey (token tokenType message : String) : Except KeyError RsaPublicKey := do
  let header ← orError .jwt (K.decodeHeader token)
  if header.alg ≠ .rs256 ∨ header.typ ≠ some tokenType ∨ hasUnsupportedCrit K token then
    .error (.invalid message)
  else do
    let kid ← orError (.invalid "token kid is missing") header.kid
    orError (.invalid "token kid is unknown") (keys.decoding.lookup kid)

/-- What `verify` asks of the claims. -/
def accessValidation (issuer audience : String) : Validation :=
  { Validation.new .rs256 with
    issuer := some [issuer]
    audience := some [audience]
    required := ["exp", "iss", "aud"]
    leeway := clockSkewSeconds.toNat }

/-- `verify`, for claims that are read by `read`, at `now` in seconds since the epoch. -/
def verify {T : Type} (read : Json → Option T) (token issuer audience : String) (now : Nat) :
    Except KeyError T := do
  let key ← headerKey keys token "at+jwt" "token algorithm or type is invalid"
  let claims ← orError .jwt (K.decode token key (accessValidation issuer audience) now)
  orError .jwt (read claims)

/-- What `verify_id_logout` asks: the signed audience is bound to the RP inside the session
    lock, the expiry to the exact session. -/
def hintValidation (issuer : String) : Validation :=
  { Validation.new .rs256 with
    issuer := some [issuer]
    validateAud := false
    validateExp := false
    required := ["exp", "iat", "sub", "iss", "aud"] }

def verifyIdLogout (token issuer : String) (now : Nat) :
    Except KeyError IdTokenClaims := do
  let key ← headerKey keys token "JWT" "logout hint algorithm or type is invalid"
  let value ← orError .jwt (K.decode token key (hintValidation issuer) now)
  let claims ← orError .jwt (IdTokenClaims.ofJson K value)
  if claims.aud.isEmpty ∨ claims.exp ≤ claims.iat ∨ claims.iat > now + clockSkewSeconds then
    .error (.invalid "logout hint claims are invalid")
  else return claims

end Tokens

/-! ## 5. What the collections hold -/

theorem orError_ok {α : Type} {e : KeyError} {o : Option α} {a : α} :
    orError e o = .ok a ↔ o = some a := by
  cases o with
  | none => simp [orError]
  | some b => simp [orError]

/-- Bytes and the number they spell. -/
theorem ofDigits_toBytesBe (n : Nat) :
    Nat.ofDigits 256 ((toBytesBe n).reverse.map UInt8.toNat) = n := by
  by_cases hn : n = 0
  · simp [toBytesBe, hn]
  · have hmap : ((Nat.digits 256 n).map UInt8.ofNat).map UInt8.toNat = Nat.digits 256 n := by
      rw [List.map_map]
      refine (List.map_congr_left fun d hd => ?_).trans (List.map_id _)
      have : d < 256 := Nat.digits_lt_base (by omega) hd
      simp [Nat.mod_eq_of_lt this]
    rw [toBytesBe, if_neg hn, List.reverse_reverse, hmap, Nat.ofDigits_digits]

theorem material_injective : Function.Injective RsaPublicKey.material := by
  intro a b h
  obtain ⟨hn, he⟩ := Prod.mk.inj h
  have hn : a.n = b.n := by rw [← ofDigits_toBytesBe a.n, hn, ofDigits_toBytesBe]
  have he : a.e = b.e := by rw [← ofDigits_toBytesBe a.e, he, ofDigits_toBytesBe]
  cases a
  cases b
  simp_all

/-- **The collections hold exactly the keys of a list**, which repeats neither an id nor a key. -/
structure Collected.Holds (l : List (String × RsaPublicKey)) (c : Collected) : Prop where
  seen : c.seen = (l.map Prod.fst).toFinset
  seenMaterial : c.seenMaterial = (l.map fun p => p.2.material).toFinset
  decoding : ∀ kid key, c.decoding.lookup kid = some key ↔ (kid, key) ∈ l
  jwks : c.jwks = l.map fun p => Jwk.ofKey p.1 p.2
  kids : (l.map Prod.fst).Nodup
  materials : (l.map Prod.snd).Nodup

theorem Collected.empty_holds : Collected.empty.Holds [] where
  seen := rfl
  seenMaterial := rfl
  decoding := by simp [Collected.empty]
  jwks := rfl
  kids := List.nodup_nil
  materials := List.nodup_nil

section Load

variable {K : KeyCrates} {files : KeyFiles}

/-- A key is added when its id and its material are new, and then to every collection. -/
theorem addPublic_holds {l : List (String × RsaPublicKey)} {c c' : Collected} {kid : String}
    {key : RsaPublicKey} {pem : List UInt8} (hc : c.Holds l)
    (hpem : ∀ key', K.decodingKey pem = some key' → key' = key)
    (h : addPublic K kid key pem c = .ok c') : c'.Holds (l ++ [(kid, key)]) := by
  obtain ⟨hkid, h⟩ := ite_ok h
  obtain ⟨-, -, h⟩ := bind_ok h
  obtain ⟨hkey, h⟩ := ite_ok h
  obtain ⟨key', hkey', h⟩ := bind_ok h
  obtain rfl := hpem key' (orError_ok.mp hkey')
  cases h
  have hfresh : kid ∉ l.map Prod.fst := by simpa [hc.seen] using hkid
  have hnew : key' ∉ l.map Prod.snd := by
    intro hm
    obtain ⟨p, hp, rfl⟩ := List.mem_map.mp hm
    exact hkey (by simpa [hc.seenMaterial] using ⟨p.1, p.2, hp, rfl⟩)
  exact {
    seen := by simp [hc.seen]
    seenMaterial := by simp [hc.seenMaterial]
    decoding := by
      intro i k
      by_cases hi : i = kid
      · subst hi
        have : (i, k) ∉ l := fun hm => hfresh (List.mem_map_of_mem hm)
        simp [AList.lookup_insert, this, eq_comm]
      · simp [AList.lookup_insert_ne hi, hc.decoding, hi]
    jwks := by simp [hc.jwks]
    kids := by
      rw [List.map_append]
      exact hc.kids.append (List.nodup_singleton _) (by simpa using hfresh)
    materials := by
      rw [List.map_append]
      exact hc.materials.append (List.nodup_singleton _) (by simpa using hnew) }

/-- The entries of a manifest and the keys in their files. -/
def ListsKeys (K : KeyCrates) (files : KeyFiles) (entries : List PublicKey)
    (l : List (String × RsaPublicKey)) : Prop :=
  entries.map (fun e => (e.kid, publicAt K files e.publicKey)) = l.map fun p => (p.1, some p.2)

theorem parsePublic_ok (hK : K.Lawful) {pem : List UInt8} {key : RsaPublicKey}
    (h : parsePublic K pem = .ok key) : (fromUtf8 pem).bind K.publicOf = some key ∧
      ∀ key', K.decodingKey pem = some key' → key' = key := by
  obtain ⟨text, htext, h⟩ := bind_ok h
  have htext := orError_ok.mp htext
  have h := orError_ok.mp h
  refine ⟨by rw [htext, Option.bind_some, h], fun key' hkey' => ?_⟩
  rw [fromUtf8_eq htext] at hkey'
  exact hK.samePublic text key' key hkey' h

theorem addEntry_holds (hK : K.Lawful) {l : List (String × RsaPublicKey)} {c c' : Collected}
    {entry : PublicKey} (hc : c.Holds l) (h : addEntry K files c entry = .ok c') :
    ∃ key, publicAt K files entry.publicKey = some key ∧ c'.Holds (l ++ [(entry.kid, key)]) := by
  obtain ⟨-, -, h⟩ := bind_ok h
  obtain ⟨pem, hpem, h⟩ := bind_ok h
  obtain ⟨key, hkey, h⟩ := bind_ok h
  have hparse := parsePublic_ok hK hkey
  refine ⟨key, ?_, addPublic_holds hc hparse.2 h⟩
  rw [publicAt, orError_ok.mp hpem, Option.bind_some, hparse.1]

/-- The loop: every entry has a key, and the collections grow by these. -/
theorem addEntries_holds (hK : K.Lawful) {entries : List PublicKey} :
    ∀ {l : List (String × RsaPublicKey)} {c c' : Collected}, c.Holds l →
      entries.foldlM (addEntry K files) c = .ok c' →
      ∃ l', ListsKeys K files entries l' ∧ c'.Holds (l ++ l') := by
  induction entries with
  | nil =>
      rintro l c c' hc h
      cases h
      exact ⟨[], rfl, by simpa using hc⟩
  | cons entry entries ih =>
      intro l c c' hc h
      rw [List.foldlM_cons] at h
      obtain ⟨c₁, h₁, h⟩ := bind_ok h
      obtain ⟨key, hkey, hc₁⟩ := addEntry_holds hK hc h₁
      obtain ⟨l', hl', hc'⟩ := ih hc₁ h
      refine ⟨(entry.kid, key) :: l', ?_, by simpa using hc'⟩
      simp only [ListsKeys, List.map_cons, hkey] at hl' ⊢
      rw [hl']

/-- **What a load has read**: every entry's key, and the private key of the active one. -/
theorem load_entries (hK : K.Lawful) {keys : SigningKeys K} (h : load K files = .ok keys) :
    ∃ m l c, files.manifest = some m ∧ ListsKeys K files m.entries l ∧ Collected.Holds l c ∧
      keys.activeKid = m.active.kid ∧ keys.decoding = c.decoding ∧ keys.jwks.keys = c.jwks ∧
      privateAt K files m.active.privateKey = some keys.encoding ∧
      publicAt K files m.active.publicKey = some (K.toPublicKey keys.encoding) := by
  obtain ⟨text, htext, h⟩ := bind_ok h
  obtain ⟨m, hm, h⟩ := bind_ok h
  obtain ⟨-, -, h⟩ := bind_ok h
  obtain ⟨privatePem, hprivate, h⟩ := bind_ok h
  obtain ⟨key, hkey, h⟩ := bind_ok h
  obtain ⟨-, -, h⟩ := bind_ok h
  obtain ⟨pem, hpem, h⟩ := bind_ok h
  obtain ⟨shown, hshown, h⟩ := bind_ok h
  obtain ⟨hmatch, h⟩ := ite_ok h
  obtain ⟨active, hactive, h⟩ := bind_ok h
  obtain ⟨all, hall, h⟩ := bind_ok h
  obtain ⟨encoding, hencoding, h⟩ := bind_ok h
  cases h
  -- the private key was read from the bytes that the JWT crate reads
  obtain ⟨metadata, -, hprivate⟩ := bind_ok hprivate
  obtain ⟨-, hprivate⟩ := ite_ok hprivate
  obtain ⟨-, -, hread⟩ := bind_ok hprivate
  obtain ⟨text', htext', hkey⟩ := bind_ok hkey
  have htext' := orError_ok.mp htext'
  have hkey := orError_ok.mp hkey
  have hencoding := orError_ok.mp hencoding
  rw [fromUtf8_eq htext'] at hencoding
  obtain rfl : encoding = key := hK.samePrivate text' encoding key hencoding hkey
  obtain rfl : K.toPublicKey encoding = shown := not_not.mp hmatch
  have hparse := parsePublic_ok hK hshown
  have hat : publicAt K files m.active.publicKey = some (K.toPublicKey encoding) := by
    rw [publicAt, orError_ok.mp hpem, Option.bind_some, hparse.1]
  have hfirst := addPublic_holds Collected.empty_holds hparse.2 hactive
  obtain ⟨l, hl, hc⟩ := addEntries_holds hK hfirst hall
  refine ⟨m, (m.active.kid, K.toPublicKey encoding) :: l, all, ?_, ?_, by simpa using hc, rfl, rfl,
    rfl, ?_, hat⟩
  · rw [KeyFiles.manifest, orError_ok.mp htext, Option.bind_some, orError_ok.mp hm]
  · simp only [ListsKeys, Manifest.entries, List.map_cons, hat]
    rw [hl]
  · rw [privateAt, orError_ok.mp hread, Option.bind_some, htext', Option.bind_some, hkey]

theorem ListsKeys.kids {entries : List PublicKey} {l : List (String × RsaPublicKey)}
    (h : ListsKeys K files entries l) : l.map Prod.fst = entries.map PublicKey.kid := by
  have := congrArg (List.map Prod.fst) h
  simp only [List.map_map] at this
  exact this.symm

theorem ListsKeys.keys {entries : List PublicKey} {l : List (String × RsaPublicKey)}
    (h : ListsKeys K files entries l) :
    entries.map (fun e => publicAt K files e.publicKey) = (l.map Prod.snd).map some := by
  have := congrArg (List.map Prod.snd) h
  simp only [List.map_map] at this ⊢
  exact this

theorem ListsKeys.mem {entries : List PublicKey} {l : List (String × RsaPublicKey)}
    (h : ListsKeys K files entries l) {kid : String} {key : RsaPublicKey} :
    (kid, key) ∈ l ↔ ∃ e ∈ entries, e.kid = kid ∧ publicAt K files e.publicKey = some key := by
  have hmem : (kid, some key) ∈ entries.map (fun e => (e.kid, publicAt K files e.publicKey)) ↔
      (kid, some key) ∈ l.map fun p => (p.1, some p.2) := by rw [h]
  simpa [eq_comm] using hmem.symm

/-- The map holds the ids of the list, each once. -/
theorem Collected.Holds.keys_perm {l : List (String × RsaPublicKey)} {c : Collected}
    (hc : c.Holds l) : c.decoding.keys.Perm (l.map Prod.fst) := by
  refine (List.perm_ext_iff_of_nodup c.decoding.keys_nodup hc.kids).mpr fun kid => ?_
  rw [← AList.mem_keys, ← AList.lookup_isSome, Option.isSome_iff_exists]
  simp [hc.decoding]

/-- A public key that can be added, from its file. -/
structure Usable (K : KeyCrates) (files : KeyFiles) (e : PublicKey) (key : RsaPublicKey) :
    Prop where
  kid : checkKid e.kid = .ok ()
  file : ∃ pem, files.read e.publicKey = some pem ∧ parsePublic K pem = .ok key ∧
    K.decodingKey pem = some key
  size : 2048 ≤ key.n.size

theorem addPublic_ok {l : List (String × RsaPublicKey)} {c : Collected} (hc : c.Holds l)
    (kid : String) {key : RsaPublicKey} {pem : List UInt8} (hkid : kid ∉ l.map Prod.fst)
    (hkey : key ∉ l.map Prod.snd) (hsize : 2048 ≤ key.n.size)
    (hpem : K.decodingKey pem = some key) : ∃ c', addPublic K kid key pem c = .ok c' := by
  have hseen : kid ∉ c.seen := by simpa [hc.seen] using hkid
  have hmaterial : key.material ∉ c.seenMaterial := by
    intro h
    obtain ⟨p, hp, heq⟩ : ∃ p ∈ l, p.2.material = key.material := by
      simpa [hc.seenMaterial] using h
    exact hkey (List.mem_map.mpr ⟨p, hp, material_injective heq⟩)
  refine ⟨⟨Insert.insert kid c.seen, Insert.insert key.material c.seenMaterial,
    c.decoding.insert kid key, c.jwks ++ [Jwk.ofKey kid key]⟩, ?_⟩
  rw [addPublic, if_neg hseen, validateSize, if_neg (by omega : ¬key.n.size < 2048)]
  simp only [bind, Except.bind, if_neg hmaterial, hpem, orError]
  rfl

/-- The loop succeeds on usable keys that repeat nothing. -/
theorem addEntries_ok (hK : K.Lawful) {entries : List PublicKey} :
    ∀ {l : List (String × RsaPublicKey)} {keys : List RsaPublicKey} {c : Collected}, c.Holds l →
      List.Forall₂ (Usable K files) entries keys →
      (l.map Prod.fst ++ entries.map PublicKey.kid).Nodup → (l.map Prod.snd ++ keys).Nodup →
      ∃ c', entries.foldlM (addEntry K files) c = .ok c' := by
  induction entries with
  | nil => exact fun {_ _ c} _ _ _ _ => ⟨c, rfl⟩
  | cons entry entries ih =>
      intro l keys c hc hl hkids hkeys
      obtain ⟨key, keys, husable, hrest, rfl⟩ := List.forall₂_cons_left_iff.mp hl
      obtain ⟨pem, hread, hparse, hdecoding⟩ := husable.file
      have hkid : entry.kid ∉ l.map Prod.fst := fun h =>
        List.disjoint_of_nodup_append hkids h (List.mem_cons_self ..)
      have hkey : key ∉ l.map Prod.snd := fun h =>
        List.disjoint_of_nodup_append hkeys h (List.mem_cons_self ..)
      obtain ⟨c₁, h₁⟩ := addPublic_ok hc _ hkid hkey husable.size hdecoding
      have hadd : addEntry K files c entry = .ok c₁ := by
        simp only [addEntry, bind, Except.bind, husable.kid, hread, orError, hparse]
        exact h₁
      have hc₁ := addPublic_holds hc (parsePublic_ok hK hparse).2 h₁
      obtain ⟨c', h⟩ := ih hc₁ hrest (by simpa using hkids) (by simpa using hkeys)
      exact ⟨c', by rw [List.foldlM_cons, hadd]; exact h⟩

/-- **A load succeeds** on a manifest whose keys are usable and repeat nothing. -/
theorem load_ok (hK : K.Lawful) {m : Manifest} (hm : files.manifest = some m)
    (key : K.PrivateKey) (pem : List UInt8) {keys : List RsaPublicKey}
    (hprivate : readPrivateKey files m.active.privateKey = .ok pem)
    (hparse : parsePrivate K pem = .ok key) (hencoding : K.encodingKey pem = some key)
    (hkeys : List.Forall₂ (Usable K files) m.entries (K.toPublicKey key :: keys))
    (hkids : m.kids.Nodup) (hnew : (K.toPublicKey key :: keys).Nodup) :
    ∃ loaded, load K files = .ok loaded := by
  obtain ⟨text, htext, hm⟩ := Option.bind_eq_some_iff.mp hm
  obtain ⟨hactive, hrest⟩ := List.forall₂_cons.mp hkeys
  obtain ⟨shown, hread, hpublic, hdecoding⟩ := hactive.file
  obtain ⟨c, hadd⟩ := addPublic_ok Collected.empty_holds m.active.kid (by simp) (by simp)
    hactive.size hdecoding
  have hc := addPublic_holds Collected.empty_holds (parsePublic_ok hK hpublic).2 hadd
  obtain ⟨all, hall⟩ := addEntries_ok hK hc hrest hkids hnew
  refine ⟨⟨m.active.kid, key, all.decoding, ⟨all.jwks⟩⟩, ?_⟩
  have hkid : checkKid m.active.kid = .ok () := hactive.kid
  have hsize : ¬(K.toPublicKey key).n.size < 2048 := by
    have := hactive.size
    omega
  simp only [load, bind, Except.bind, htext, hm, orError, hkid, hprivate, hparse, validateSize,
    if_neg hsize, hread, hpublic, hadd, hall, hencoding, ne_eq, not_true_eq_false, if_false]
  rfl

end Load

/-! ## 6. Tokens of a key set -/

section Tokens

variable {K : KeyCrates} {keys keys' : SigningKeys K}

/-- A token was issued to be read now. -/
def AccessClaims.Live (c : AccessClaims) (now : Nat) : Prop :=
  ∃ n : Nat, c.exp = n ∧ now ≤ n + clockSkewSeconds.toNat

theorem hasUnsupportedCrit_encode (hK : K.Lawful) {header : JwtHeader} {claims : Json}
    {key : K.PrivateKey} {token : String} (h : K.encode header claims key = some token) :
    hasUnsupportedCrit K token = false := by
  obtain ⟨ms, hms, hcrit⟩ := hK.segment _ _ _ _ h
  have hnone : ms.reverse.find? (·.1 = "crit") = none :=
    List.find?_eq_none.mpr fun m hm => by simpa using hcrit m (List.mem_reverse.mp hm)
  simp [hasUnsupportedCrit, hms, hnone]

/-- The key that a signed token is verified with: the one under its id, for its type only. -/
theorem headerKey_ok (hK : K.Lawful) {claims : Json} {typ typ' message token : String}
    {key : RsaPublicKey} (h : signTyped keys claims typ = .ok token) :
    headerKey keys' token typ' message = .ok key ↔
      typ = typ' ∧ keys'.decoding.lookup keys.activeKid = some key := by
  have h := orError_ok.mp h
  have hcrit := hasUnsupportedCrit_encode hK h
  simp only [headerKey, hK.header _ _ _ _ h, orError]
  by_cases htyp : typ = typ'
  · cases hkey : keys'.decoding.lookup keys.activeKid <;>
      simp [htyp, hcrit, hkey, bind, Except.bind]
  · simp [htyp, bind, Except.bind]

theorem strings_arr (l : List String) : (Json.arr (l.map .str)).strings = some l := by
  simp only [Json.strings]
  induction l with
  | nil => rfl
  | cons s l ih =>
      rw [List.map_cons, List.mapM_cons, ih]
      rfl

theorem seconds_num {n : Int} {m : Nat} : (Json.num n).seconds = some m ↔ n = m := by
  cases n with
  | ofNat n => simp [Json.seconds]
  | negSucc n => simp [Json.seconds]

/-- The registered claims of an access token, as a verifier reads them. -/
theorem accepts_access (K : KeyCrates) (c : AccessClaims) {issuer audience : String} {now : Nat} :
    (accessValidation issuer audience).Accepts now (c.members K) ↔
      c.iss = issuer ∧ audience ∈ c.aud ∧ c.Live now := by
  have hiss : (Json.member (c.members K) "iss").bind Json.strings = some [c.iss] := rfl
  have haud : (Json.member (c.members K) "aud").bind Json.strings = some c.aud :=
    strings_arr c.aud
  have hexp : (Json.member (c.members K) "exp").bind Json.seconds = (Json.num c.exp).seconds := rfl
  constructor
  · intro h
    have hpresent := h.required "exp" (by simp [accessValidation])
    simp only [Json.Claims] at hpresent
    obtain ⟨n, hn⟩ := Option.isSome_iff_exists.mp hpresent
    refine ⟨?_, ?_, n, seconds_num.mp (hexp.symm.trans hn), h.unexpired rfl n hn⟩
    · simpa using h.issuer [issuer] rfl [c.iss] hiss
    · obtain ⟨allowed, hallowed, s, hs, hmem⟩ := h.audience rfl c.aud haud
      cases hallowed
      obtain rfl := List.mem_singleton.mp hmem
      exact hs
  · rintro ⟨rfl, hmem, n, hn, hlive⟩
    have hseconds := hexp.trans (seconds_num.mpr hn)
    refine ⟨fun name hname => ?_, fun _ m hm => ?_, fun allowed hallowed iss h => ?_,
      fun _ aud h => ?_⟩
    · simp only [accessValidation, List.mem_cons, List.not_mem_nil, or_false] at hname
      obtain rfl | rfl | rfl := hname
      · exact Option.isSome_iff_exists.mpr ⟨n, hseconds⟩
      · exact Option.isSome_iff_exists.mpr ⟨_, hiss⟩
      · exact Option.isSome_iff_exists.mpr ⟨_, haud⟩
    · obtain rfl := Option.some.inj (hseconds.symm.trans hm)
      exact hlive
    · cases hallowed
      cases hiss.symm.trans h
      exact ⟨c.iss, List.mem_singleton_self _, List.mem_singleton_self _⟩
    · cases haud.symm.trans h
      exact ⟨[audience], rfl, audience, hmem, List.mem_singleton_self _⟩

/-- **A signed access token verifies** under the key it was signed with, listed under the id it
    was signed with, for its issuer and one of its audiences, while it lives. -/
theorem verify_iff (hK : K.Lawful) {c c' : AccessClaims} {typ token : String}
    (h : signTyped keys (c.toJson K) typ = .ok token) {issuer audience : String} {now : Nat} :
    verify keys' (AccessClaims.ofJson K) token issuer audience now = .ok c' ↔
      typ = "at+jwt" ∧
      keys'.decoding.lookup keys.activeKid = some (K.toPublicKey keys.encoding) ∧
      c.iss = issuer ∧ audience ∈ c.aud ∧ c.Live now ∧ c' = c := by
  have hencode := orError_ok.mp h
  constructor
  · intro hv
    obtain ⟨key, hkey, hv⟩ := bind_ok hv
    obtain ⟨claims, hclaims, hv⟩ := bind_ok hv
    obtain ⟨htyp, hlookup⟩ := (headerKey_ok hK h).mp hkey
    obtain ⟨rfl, -, haccepts, rfl⟩ := (hK.decode _ _ _ _ hencode _ _ _ _).mp (orError_ok.mp hclaims)
    have hread : AccessClaims.ofJson K (c.toJson K) = some c' := orError_ok.mp hv
    rw [AccessClaims.ofJson_toJson hK] at hread
    obtain ⟨hiss, haud, hlive⟩ := (accepts_access K c).mp haccepts
    exact ⟨htyp, hlookup, hiss, haud, hlive, (Option.some.inj hread).symm⟩
  · rintro ⟨htyp, hlookup, hiss, haud, hlive, rfl⟩
    have haccepts := (accepts_access K c').mpr ⟨hiss, haud, hlive⟩
    have hdecode := (hK.decode _ _ _ _ hencode _ _ now _).mpr ⟨rfl, List.mem_singleton_self _,
      haccepts, rfl⟩
    have hread := AccessClaims.ofJson_toJson hK c'
    rw [verify, (headerKey_ok hK h).mpr ⟨htyp, hlookup⟩]
    simp only [bind, Except.bind, hdecode, orError]
    rw [show AccessClaims.ofJson K (.obj _) = some c' from hread]

end Tokens

/-! ## 7. Rotation -/

/-- A key set publishes and verifies with the keys of its manifest, each once, and signs with
    the private key of the active one. -/
structure SigningKeys.Shows {K : KeyCrates} (files : KeyFiles) (m : Manifest)
    (keys : SigningKeys K) : Prop where
  published : keys.jwks.keys.map Jwk.kid = m.kids
  verified : keys.decoding.keys.Perm m.kids
  kids : m.kids.Nodup
  readable : ∀ e ∈ m.entries, ∃ key, publicAt K files e.publicKey = some key ∧
    Jwk.ofKey e.kid key ∈ keys.jwks.keys ∧ keys.decoding.lookup e.kid = some key
  materials : (m.entries.map fun e => publicAt K files e.publicKey).Nodup
  activeKid : keys.activeKid = m.active.kid
  signing : privateAt K files m.active.privateKey = some keys.encoding
  active : publicAt K files m.active.publicKey = some (K.toPublicKey keys.encoding)

theorem load_shows {K : KeyCrates} (hK : K.Lawful) {files : KeyFiles} {keys : SigningKeys K}
    (h : load K files = .ok keys) : ∃ m, files.manifest = some m ∧ keys.Shows files m := by
  obtain ⟨m, l, c, hm, hl, hc, hkid, hdecoding, hjwks, hprivate, hactive⟩ := load_entries hK h
  have hkids : l.map Prod.fst = m.kids := hl.kids
  have hread : ∀ e ∈ m.entries, ∃ key, publicAt K files e.publicKey = some key ∧
      (e.kid, key) ∈ l := by
    intro e he
    have hsome : publicAt K files e.publicKey ∈ (l.map Prod.snd).map some :=
      hl.keys ▸ List.mem_map_of_mem he
    obtain ⟨key, -, hkey⟩ := List.mem_map.mp hsome
    exact ⟨key, hkey.symm, hl.mem.mpr ⟨e, he, rfl, hkey.symm⟩⟩
  refine ⟨m, hm, ?_, hdecoding ▸ hkids ▸ hc.keys_perm, hkids ▸ hc.kids, fun e he => ?_, ?_, hkid,
    hprivate, hactive⟩
  · rw [hjwks, hc.jwks, List.map_map, ← hkids]
    rfl
  · obtain ⟨key, hkey, hmem⟩ := hread e he
    refine ⟨key, hkey, ?_, hdecoding ▸ (hc.decoding _ _).mpr hmem⟩
    rw [hjwks, hc.jwks]
    exact List.mem_map_of_mem (f := fun p => Jwk.ofKey p.1 p.2) hmem
  · rw [hl.keys]
    exact hc.materials.map (Option.some_injective _)

/-- A key set verifies with a key under an id exactly if its manifest lists them together. -/
theorem SigningKeys.Shows.lookup {K : KeyCrates} {files : KeyFiles} {m : Manifest}
    {keys : SigningKeys K} (h : keys.Shows files m) {kid : String} {key : RsaPublicKey} :
    keys.decoding.lookup kid = some key ↔
      ∃ e ∈ m.entries, e.kid = kid ∧ publicAt K files e.publicKey = some key := by
  constructor
  · intro hkey
    have hkid : kid ∈ m.kids :=
      h.verified.subset (AList.mem_keys.mp (AList.lookup_isSome.mp (by rw [hkey]; rfl)))
    obtain ⟨e, he, rfl⟩ := List.mem_map.mp hkid
    obtain ⟨key', hat, -, hkey'⟩ := h.readable e he
    exact ⟨e, he, rfl, hat.trans (hkey'.symm.trans hkey)⟩
  · rintro ⟨e, he, rfl, hat⟩
    obtain ⟨key', hat', -, hkey'⟩ := h.readable e he
    exact hkey'.trans (hat'.symm.trans hat)

/-- **Key sets are sound, and a rotation keeps exactly the tokens it lists.** A load that
    succeeds shows the keys of its manifest; one whose manifest repeats an id or a key fails;
    and a live access token of one key set verifies under another exactly if the other manifest
    lists the active key of the first, under the same id. -/
theorem key_rotation (K : KeyCrates) (hK : K.Lawful) :
    (∀ files keys, load K files = .ok keys →
      ∃ m, files.manifest = some m ∧ keys.Shows files m) ∧
    (∀ files m, files.manifest = some m →
      (¬m.kids.Nodup ∨ ¬(m.entries.map fun e => publicAt K files e.publicKey).Nodup) →
      ∀ keys, load K files ≠ .ok keys) ∧
    ∀ files₁ files₂ m₁ m₂ keys₁ keys₂, files₁.manifest = some m₁ → files₂.manifest = some m₂ →
      load K files₁ = .ok keys₁ → load K files₂ = .ok keys₂ →
      ∀ (c : AccessClaims) token, sign keys₁ (c.toJson K) = .ok token →
        ∀ audience ∈ c.aud, ∀ now, c.Live now →
          ((∃ c', verify keys₂ (AccessClaims.ofJson K) token c.iss audience now = .ok c') ↔
            ∃ e ∈ m₂.entries, e.kid = m₁.active.kid ∧
              publicAt K files₂ e.publicKey = publicAt K files₁ m₁.active.publicKey) := by
  refine ⟨fun files keys h => load_shows hK h, fun files m hm hrepeat keys h => ?_, ?_⟩
  · obtain ⟨m', hm', hshows⟩ := load_shows hK h
    obtain rfl := Option.some.inj (hm.symm.trans hm')
    rcases hrepeat with hkids | hkeys
    · exact hkids hshows.kids
    · exact hkeys hshows.materials
  · intro files₁ files₂ m₁ m₂ keys₁ keys₂ hm₁ hm₂ h₁ h₂ c token htoken audience haud now hlive
    obtain ⟨m, hm, hshows₁⟩ := load_shows hK h₁
    obtain rfl := Option.some.inj (hm₁.symm.trans hm)
    obtain ⟨m, hm, hshows₂⟩ := load_shows hK h₂
    obtain rfl := Option.some.inj (hm₂.symm.trans hm)
    rw [hshows₁.active, ← hshows₁.activeKid, ← hshows₂.lookup]
    constructor
    · rintro ⟨c', hverify⟩
      exact ((verify_iff hK htoken).mp hverify).2.1
    · intro hlookup
      exact ⟨c, (verify_iff hK htoken).mpr ⟨rfl, hlookup, rfl, haud, hlive, rfl⟩⟩

/-! Two keys under which a token names an entry of a list of signed statements. -/

namespace Sample

def modulus (k : Nat) : Nat := 2 ^ 2047 + k

def oldKey : RsaPublicKey := ⟨modulus 1, 65537⟩

def newKey : RsaPublicKey := ⟨modulus 3, 65537⟩

def privatePem (text : String) : Option RsaPublicKey :=
  if text = "private old" then some oldKey
  else if text = "private new" then some newKey else none

def publicPem (text : String) : Option RsaPublicKey :=
  if text = "public old" then some oldKey
  else if text = "public new" then some newKey else none

/-- A text of a given length. -/
def mark (n : Nat) : String := String.ofList (List.replicate n 'x')

/-- What was signed: a header, claims and a key. -/
abbrev Signed := JwtHeader × List (String × Json) × RsaPublicKey

open Classical in
noncomputable def keyCrates (signed : List Signed) : KeyCrates where
  PrivateKey := RsaPublicKey
  toPublicKey := fun key => key
  pkcs8Private := privatePem
  pkcs1Private := fun _ => none
  publicKeyPem := publicPem
  pkcs1Public := fun _ => none
  encodingKey := fun pem => (fromUtf8 pem).bind privatePem
  decodingKey := fun pem => (fromUtf8 pem).bind publicPem
  encode := fun header claims key =>
    match claims with
    | .obj ms => if (header, ms, key) ∈ signed then some (mark (signed.idxOf (header, ms, key) + 1))
        else none
    | _ => none
  decodeHeader := fun token => (signed[token.length - 1]?).map fun s => s.1
  firstSegment := fun token => (signed[token.length - 1]?).map fun _ => .obj []
  decode := fun token key v now =>
    (signed[token.length - 1]?).bind fun s =>
      if key = s.2.2 ∧ s.1.alg ∈ v.algorithms ∧ v.Accepts now s.2.1 then some (.obj s.2.1) else none
  uuidText := fun u => mark (u + 1)
  uuidOf := fun text => some (text.length - 1)

@[simp] theorem length_mark (n : Nat) : (mark n).length = n := by
  simp [mark]

open Classical in
/-- An encoded token names its entry. -/
theorem encode_named {signed : List Signed} {header : JwtHeader} {claims : Json}
    {key : RsaPublicKey} {token : String}
    (h : (keyCrates signed).encode header claims key = some token) :
    ∃ ms, claims = .obj ms ∧ signed[token.length - 1]? = some (header, ms, key) := by
  cases claims with
  | obj ms =>
      simp only [keyCrates] at h
      split at h
      · cases h
        exact ⟨ms, rfl, by simpa using List.getElem?_idxOf ‹_›⟩
      · cases h
  | _ => cases h

open Classical in
/-- Everything on the list is signed. -/
theorem encode_signed {signed : List Signed} {header : JwtHeader} {ms : List (String × Json)}
    {key : RsaPublicKey} (h : (header, ms, key) ∈ signed) :
    (keyCrates signed).encode header (.obj ms) key =
      some (mark (signed.idxOf (header, ms, key) + 1)) :=
  if_pos h

theorem keyCrates_lawful (signed : List Signed) : (keyCrates signed).Lawful where
  samePrivate := by
    intro text key key' h h'
    simp [keyCrates, KeyCrates.privateOf] at h h'
    exact Option.some.inj (h.symm.trans h')
  samePublic := by
    intro text key key' h h'
    simp [keyCrates, KeyCrates.publicOf] at h h'
    exact Option.some.inj (h.symm.trans h')
  header := by
    intro header claims key token h
    obtain ⟨ms, -, hsigned⟩ := encode_named h
    simp [keyCrates, hsigned]
  segment := by
    intro header claims key token h
    obtain ⟨ms, -, hsigned⟩ := encode_named h
    exact ⟨[], by simp [keyCrates, hsigned], List.forall_mem_nil _⟩
  decode := by
    intro header ms key token h key' v now claims
    obtain ⟨ms', hms, hsigned⟩ := encode_named h
    cases hms
    simp [keyCrates, hsigned, and_assoc, eq_comm]
  uuid := by simp [keyCrates]
  uuidText := by
    intro u h
    simpa [keyCrates] using congrArg String.length h

/-- Files that hold the texts they are named after. -/
def keyFiles (m : Manifest) : KeyFiles where
  manifestText := some "manifest"
  manifestOf := fun text => if text = "manifest" then some m else none
  metadata := fun _ => some ⟨true, 0o600⟩
  read := fun path => some (utf8 path)

def oldEntry : PublicKey := ⟨"old", "public old"⟩

def newEntry : PublicKey := ⟨"new", "public new"⟩

/-- The old key signs, the new one is announced; then the new one signs, with or without the
    old one still listed. -/
def announced : Manifest := ⟨⟨"old", "private old", "public old"⟩, [], [newEntry]⟩

def rotated : Manifest := ⟨⟨"new", "private new", "public new"⟩, [oldEntry], []⟩

def retired : Manifest := ⟨⟨"new", "private new", "public new"⟩, [], []⟩

def accessClaims : AccessClaims :=
  ⟨"https://id.example.test", 1, ["https://api.example.test"], 1300, 1000, "first", "app", "read"⟩

/-- One access token, signed with the old key. -/
noncomputable def signedOnce : List Signed :=
  [(⟨.rs256, some "at+jwt", some "old"⟩, accessClaims.members (keyCrates []), oldKey)]

noncomputable abbrev rotating : KeyCrates := keyCrates signedOnce

open Classical in
theorem signs_once : orError .jwt (rotating.encode ⟨.rs256, some "at+jwt", some "old"⟩
    (accessClaims.toJson rotating) oldKey) = .ok (mark 1) := by
  have hidx : signedOnce.idxOf (⟨.rs256, some "at+jwt", some "old"⟩, accessClaims.members rotating,
      oldKey) = 0 := List.idxOf_cons_self ..
  have hsigned : rotating.encode ⟨.rs256, some "at+jwt", some "old"⟩ (accessClaims.toJson rotating)
      oldKey = some (mark (signedOnce.idxOf _ + 1)) := encode_signed (List.mem_singleton.mpr rfl)
  rw [hsigned, hidx]
  rfl

theorem size_pow_add (b k : Nat) : b < (2 ^ b + k).size := Nat.lt_size.mpr (Nat.le_add_right _ _)

theorem size_modulus (k : Nat) : 2048 ≤ (modulus k).size := size_pow_add 2047 k

theorem old_ne_new : oldKey ≠ newKey := fun h =>
  absurd (Nat.add_left_cancel (congrArg RsaPublicKey.n h)) (by decide)

section Loads

variable {signed : List Signed} {m : Manifest}

theorem usable_old : Usable (keyCrates signed) (keyFiles m) oldEntry oldKey where
  kid := by decide +kernel
  file := ⟨_, rfl, by simp [parsePublic, orError, keyCrates, KeyCrates.publicOf, publicPem,
    oldEntry, bind, Except.bind], by simp [keyCrates, publicPem, oldEntry]⟩
  size := size_modulus _

theorem usable_new : Usable (keyCrates signed) (keyFiles m) newEntry newKey where
  kid := by decide +kernel
  file := ⟨_, rfl, by simp [parsePublic, orError, keyCrates, KeyCrates.publicOf, publicPem,
    newEntry, bind, Except.bind], by simp [keyCrates, publicPem, newEntry]⟩
  size := size_modulus _

theorem announced_loads (signed : List Signed) :
    ∃ keys, load (keyCrates signed) (keyFiles announced) = .ok keys :=
  load_ok (keyCrates_lawful signed) rfl oldKey (utf8 "private old") (by decide)
    (by simp [parsePrivate, orError, keyCrates, KeyCrates.privateOf, privatePem, bind,
      Except.bind]) (by simp [keyCrates, privatePem])
    (.cons usable_old (.cons usable_new .nil)) (by decide) (by simp [keyCrates, old_ne_new])

/-- The key set that signs with the old key. -/
theorem announced_keys (signed : List Signed) :
    ∃ keys, load (keyCrates signed) (keyFiles announced) = .ok keys ∧ keys.activeKid = "old" ∧
      keys.encoding = oldKey := by
  obtain ⟨keys, hkeys⟩ := announced_loads signed
  obtain ⟨m, hm, hshows⟩ := load_shows (keyCrates_lawful signed) hkeys
  cases hm
  have hold : privateAt (keyCrates signed) (keyFiles announced) "private old" = some oldKey := by
    simp [privateAt, keyFiles, keyCrates, KeyCrates.privateOf, privatePem]
  exact ⟨keys, hkeys, hshows.activeKid, Option.some.inj (hshows.signing.symm.trans hold)⟩

theorem new_loads (signed : List Signed) (m : Manifest) {keys : List RsaPublicKey}
    (hm : m.active = ⟨"new", "private new", "public new"⟩)
    (hkeys : List.Forall₂ (Usable (keyCrates signed) (keyFiles m)) (m.previous ++ m.next) keys)
    (hkids : m.kids.Nodup) (hnew : (newKey :: keys).Nodup) :
    ∃ loaded, load (keyCrates signed) (keyFiles m) = .ok loaded := by
  refine load_ok (keyCrates_lawful signed) rfl newKey (utf8 "private new") ?_ ?_ ?_ ?_ hkids hnew
  · rw [hm]
    rfl
  · simp [parsePrivate, orError, keyCrates, KeyCrates.privateOf, privatePem, bind, Except.bind]
  · simp [keyCrates, privatePem]
  · rw [Manifest.entries, hm]
    exact .cons usable_new hkeys

end Loads

end Sample

open Sample in
theorem key_rotation_overlap : ∃ before during after token,
    load rotating (keyFiles announced) = .ok before ∧
    load rotating (keyFiles rotated) = .ok during ∧
    load rotating (keyFiles retired) = .ok after ∧
    sign before (accessClaims.toJson rotating) = .ok token ∧
    (∃ c, verify during (AccessClaims.ofJson rotating) token "https://id.example.test"
      "https://api.example.test" 1310 = .ok c) ∧
    ¬∃ c, verify after (AccessClaims.ofJson rotating) token "https://id.example.test"
      "https://api.example.test" 1310 = .ok c := by
  have hK : rotating.Lawful := keyCrates_lawful signedOnce
  obtain ⟨before, hbefore, hkid, hencoding⟩ := announced_keys signedOnce
  obtain ⟨during, hduring⟩ := new_loads signedOnce rotated rfl
    (.cons usable_old .nil) (by decide) (by simp [old_ne_new.symm])
  obtain ⟨after, hafter⟩ := new_loads signedOnce retired rfl .nil (by decide)
    (List.nodup_singleton _)
  have hkeys := key_rotation rotating hK
  have htoken : sign before (accessClaims.toJson rotating) = .ok (mark 1) := by
    rw [sign, signTyped, hkid, hencoding]
    exact signs_once
  have hlive : accessClaims.Live 1310 := ⟨1300, rfl, by decide⟩
  refine ⟨before, during, after, mark 1, hbefore, hduring, hafter, htoken, ?_, ?_⟩
  · refine (hkeys.2.2 _ _ _ _ _ _ rfl rfl hbefore hduring _ _ htoken _
      (List.mem_singleton_self _) _ hlive).mpr ⟨oldEntry, ?_, rfl, rfl⟩
    simp [rotated, Manifest.entries]
  · intro h
    obtain ⟨e, he, hold, -⟩ := (hkeys.2.2 _ _ _ _ _ _ rfl rfl hbefore hafter _ _ htoken _
      (List.mem_singleton_self _) _ hlive).mp h
    obtain rfl := List.mem_singleton.mp he
    exact absurd hold (by decide)

end Eri
