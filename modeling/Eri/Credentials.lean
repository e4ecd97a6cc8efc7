/-
  File:      Eri/Credentials.lean
  Subject:   The credential store (src/credentials.rs), statement by statement.

  The readings of a call come from its tape in the order the code takes them: `now` for
  `clock_timestamp()`, `instant` for the lease checks of a registry or grant, `uuid` and
  `secret` for what it draws. An early `return Err(..)` and a `rollback` both drop the
  transaction (`abort`); the two replay paths commit before they return `InvalidGrant`.
-/
import Eri.Tables

namespace Eri

open Sql (commit abort ensure checked)

/-! ## 1. Values -/

inductive CredentialError where
  | metadataExpired
  | invalidGrant
  | invalidLifetime
  | database
  deriving DecidableEq

structure AuthenticatedUser where
  id : Uuid
  upstreamAuthTime : Option Time

structure ProviderSession where
  raw : String
  id : Uuid
  expiresAt : Time

structure ExchangeResult where
  sessionId : Uuid
  userId : Uuid
  clientId : String
  scopes : List String
  resource : String
  refreshToken : Option String
  oidcNonce : Option String
  upstreamAuthTime : Option Time

/-- What a rotation reads of the member it is shown and of its family. -/
structure TokenLookup where
  id : Uuid
  familyId : Uuid
  sessionId : Uuid

structure RevocationLookup where
  familyId : Uuid
  sessionId : Uuid
  clientId : String

/-! ## 2. Columns -/

/-- `revoked_at = COALESCE(revoked_at, now)`. -/
def SessionRow.revoke (now : Time) (s : SessionRow) : SessionRow :=
  { s with revokedAt := some (s.revokedAt.getD now) }

/-- `revoked_at = COALESCE(revoked_at, now)`. -/
def FamilyRow.revoke (now : Time) (f : FamilyRow) : FamilyRow :=
  { f with revokedAt := some (f.revokedAt.getD now) }

def AuthorizationCodeRow.consume (now : Time) (c : AuthorizationCodeRow) :
    AuthorizationCodeRow := { c with consumedAt := some now }

def MemberRow.consume (now : Time) (successor : Uuid) (m : MemberRow) : MemberRow :=
  { m with consumedAt := some now, successorId := some successor }

/-- The session of a login. -/
def SessionRow.start (id : Uuid) (tokenHash : Digest) (user : Uuid) (upstream : Option Time)
    (now : Time) (seconds : Nat) : SessionRow :=
  { id, tokenHash, userId := user, authTime := now, expiresAt := now.after seconds
    revokedAt := none, upstreamAuthTime := upstream }

/-- The code of a grant; `LEAST` leaves out a missing session. -/
def AuthorizationCodeRow.issue (id : Uuid) (codeHash : Digest) (sessionId : Uuid)
    (grant : ValidatedAuthorizationGrant) (oidcNonce : Option String)
    (upstreamAuthTime : Option Time) (now : Time) (seconds : Nat)
    (session : Option SessionRow) : AuthorizationCodeRow :=
  { id, codeHash, sessionId, clientId := grant.clientId, redirectUri := grant.redirectUri
    scopes := grant.scopes, resource := grant.resource, codeChallenge := grant.codeChallenge
    issueRefreshToken := grant.issueRefreshToken, oidcNonce, upstreamAuthTime
    cimdBinding := grant.cimdBindingJson, issuedAt := now
    expiresAt := match session with
      | some s => min (now.after seconds) s.expiresAt
      | none => now.after seconds
    consumedAt := none }

/-- The family of a code. -/
def FamilyRow.descend (id : Uuid) (code : CodeRow) (session : SessionRow) (now : Time) :
    FamilyRow :=
  { id, sourceCodeId := code.id, sessionId := code.sessionId, userId := session.userId
    clientId := code.clientId, scopes := code.scopes, resource := code.resource, issuedAt := now
    expiresAt := min (now + thirtyDays) session.expiresAt, revokedAt := none
    upstreamAuthTime := code.upstreamAuthTime, cimdBinding := code.cimdBinding }

/-- A token nobody has used. -/
def MemberRow.issue (id familyId : Uuid) (tokenHash : Digest) (now : Time) : MemberRow :=
  { id, familyId, tokenHash, issuedAt := now, consumedAt := none, successorId := none }

/-- A session that is neither revoked nor expired. -/
def SessionRow.active (s : SessionRow) (now : Time) : Bool :=
  s.revokedAt.isNone && decide (s.expiresAt > now)

def findSession (db : Db) (id : Uuid) : Option SessionRow :=
  (db.rows .providerSessions).find? fun s => s.id = id

/-- The member with a token hash, and its family. -/
def findMember (db : Db) (tokenHash : Digest) : Option (MemberRow × FamilyRow) := do
  let m ← (db.rows .refreshTokenMembers).find? fun m => m.tokenHash = tokenHash
  let f ← (db.rows .refreshFamilies).find? fun f => f.id = m.familyId
  some (m, f)

/-! ## 3. Checks -/

def credentialPolicyError : OAuthError → CredentialError
  | .metadataExpired => .metadataExpired
  | _ => .invalidGrant

def checkBinding (registry : Option ClientRegistry) (now : Instant) (client : String)
    (binding : Option Json) : Except CredentialError Unit :=
  match registry with
  | some R => (R.validateBinding now client binding).mapError credentialPolicyError
  | none => if binding.isNone then .ok () else .error .invalidGrant

/-- A set of scopes given without repetition. -/
def sameScopes (left right : List String) : Bool :=
  left.toFinset.card == left.length && decide (left.toFinset = right.toFinset)

section Store

variable (P : Platform) (t : Tape)

/-- The stored grant of a code, validated again by a registry. -/
def validateCode (registry : Option ClientRegistry) (now : Instant)
    (clientId redirectUri challenge : String) (scopes : List String) (resource : String) :
    Except CredentialError Unit :=
  match registry with
  | some R =>
      ((R.validatePendingParts P now clientId redirectUri "code" "S256" challenge scopes
        (some resource)).map fun _ => ()).mapError credentialPolicyError
  | none => .ok ()

/-! ## 4. Sessions and codes -/

def createProviderSession (user : AuthenticatedUser) (lifetime : Duration) :
    Op (Except CredentialError ProviderSession) Empty := do
  let seconds ← checked
    (boundedSeconds CredentialError.invalidLifetime lifetime (30 * 24 * 60 * 60)) .error
  let row ← insert .providerSessions
    (.start (t.uuid 0) (t.hash P 0) user.id user.upstreamAuthTime (t.now 0) seconds)
  commit (.ok ⟨t.secret 0, t.uuid 0, row.expiresAt⟩)

def findProviderSession (raw : String) : Op (Except CredentialError ProviderSession) Empty := do
  let row ← selectOr (fun db => (db.rows .providerSessions).find? fun s =>
    s.tokenHash = secretHash P raw && s.active (t.now 0)) (.error .invalidGrant)
  commit (.ok ⟨raw, row.id, row.expiresAt⟩)

/-- `insert_authorization_code_tx`: the code draws `uuid 0` and `secret 0`. -/
def insertAuthorizationCode {ρ : Type} (sessionId : Uuid) (grant : ValidatedAuthorizationGrant)
    (oidcNonce : Option String) (upstreamAuthTime : Option Time) (seconds : Nat) (now : Time) :
    Op ρ String := do
  let _ ← insertWith .authorizationCodes fun db =>
    .issue (t.uuid 0) (t.hash P 0) sessionId grant oidcNonce upstreamAuthTime now seconds
      (findSession db sessionId)
  pure (t.secret 0)

def issueAuthorizationCode (session : ProviderSession) (grant : ValidatedAuthorizationGrant)
    (lifetime : Duration) : Op (Except CredentialError String) Empty := do
  let seconds ← checked (boundedSeconds CredentialError.invalidLifetime lifetime 60) .error
  let _ ← lockOr .providerSessions (fun s => s.id = session.id) (.error .invalidGrant)
  let active : Bool ← selectOr (fun db => (findSession db session.id).map (·.active (t.now 0)))
    (.error .database)
  ensure active (.error .invalidGrant)
  let upstreamAuthTime ← selectOr
    (fun db => (findSession db session.id).map (·.upstreamAuthTime)) (.error .database)
  checked (grant.ensureFresh (t.instant 0)) fun _ => .error .metadataExpired
  let code ← insertAuthorizationCode P t session.id grant none upstreamAuthTime seconds (t.now 1)
  checked (grant.ensureFresh (t.instant 1)) fun _ => .error .metadataExpired
  commit (.ok code)

/-! ## 5. Exchange -/

/-- `insert_refresh`: the member draws `uuid k` and `secret 0`. -/
def insertRefresh {ρ : Type} (k : Fin 2) (familyId : Uuid) (now : Time) : Op ρ String := do
  let _ ← insert .refreshTokenMembers (.issue (t.uuid k) familyId (t.hash P 0) now)
  pure (t.secret 0)

/-- The family of a code, and its first token. -/
def createFamily {ρ : Type} (code : CodeRow) (session : SessionRow) (now : Time) :
    Op ρ String := do
  let _ ← insert .refreshFamilies (.descend (t.uuid 0) code session now)
  insertRefresh P t 1 (t.uuid 0) now

/-- `exchange_code_bound`; the lease of the registry is checked at `instant i` and on. -/
def exchangeCodeBound (i : Nat) (raw clientId redirectUri resource verifier : String)
    (registry : Option ClientRegistry) : Op (Except CredentialError ExchangeResult) Empty := do
  let code ← selectOr (fun db => ((db.rows .authorizationCodes).find? fun c =>
    c.codeHash = secretHash P raw).map (·.toCodeRow)) (.error .invalidGrant)
  ensure (code.clientId = clientId ∧ code.redirectUri = redirectUri ∧
    code.resource = resource ∧ verifyS256 P verifier code.codeChallenge) (.error .invalidGrant)
  let session ← lockOr .providerSessions (fun s => s.id = code.sessionId) (.error .invalidGrant)
  let locked ← lockOr .authorizationCodes (fun c => c.id = code.id) (.error .database)
  let current ← lockOr .authorizationCodes (fun c => c.id = code.id) (.error .database)
  ensure (current.sessionId = code.sessionId ∧ current.clientId = clientId ∧
    current.redirectUri = redirectUri ∧ current.resource = resource ∧
    verifyS256 P verifier current.codeChallenge) (.error .invalidGrant)
  checked (checkBinding registry (t.instant i) clientId current.cimdBinding) .error
  checked (validateCode P registry (t.instant (i + 1)) clientId redirectUri
    current.codeChallenge current.scopes resource) .error
  let now := t.now 0
  checked (checkBinding registry (t.instant (i + 2)) clientId current.cimdBinding) .error
  if locked.consumedAt.isSome then
    let _ ← update .refreshFamilies (fun f => f.sourceCodeId = current.id) (.revoke now)
    checked (checkBinding registry (t.instant (i + 3)) clientId current.cimdBinding) .error
    commit (.error .invalidGrant)
  else
    ensure (¬(locked.expiresAt ≤ now ∨ session.expiresAt ≤ now ∨ session.revokedAt.isSome))
      (.error .invalidGrant)
    let _ ← update .authorizationCodes (fun c => c.id = current.id) (.consume now)
    let refreshToken ← if current.issueRefreshToken then
        some <$> createFamily P t current.toCodeRow session now
      else pure none
    checked (checkBinding registry (t.instant (i + 3)) clientId current.cimdBinding) .error
    commit (.ok
      { sessionId := current.sessionId, userId := session.userId, clientId := current.clientId
        scopes := current.scopes, resource := current.resource, refreshToken
        oidcNonce := current.oidcNonce, upstreamAuthTime := current.upstreamAuthTime })

def exchangeCode (raw clientId redirectUri resource verifier : String) :
    Op (Except CredentialError ExchangeResult) Empty :=
  exchangeCodeBound P t 0 raw clientId redirectUri resource verifier none

def exchangeCodeRequest (raw clientId redirectUri : String) (resource : Option String)
    (verifier : String) (scopes : Option (List String)) (registry : ClientRegistry) :
    Op (Except CredentialError ExchangeResult) Empty := do
  let stored ← selectOr (fun db => ((db.rows .authorizationCodes).find? fun c =>
    c.codeHash = secretHash P raw && c.clientId = clientId && c.redirectUri = redirectUri).map
    (·.toCodeRow)) (.error .invalidGrant)
  ensure ((∀ r ∈ resource, r = stored.resource) ∧ ∀ s ∈ scopes, sameScopes s stored.scopes)
    (.error .invalidGrant)
  checked (validateCode P (some registry) (t.instant 0) clientId redirectUri
    stored.codeChallenge stored.scopes stored.resource) .error
  exchangeCodeBound P t 1 raw clientId redirectUri stored.resource verifier (some registry)

/-! ## 6. Rotation -/

/-- `rotate_refresh_bound`. -/
def rotateRefreshBound (raw clientId resource : String) (registry : Option ClientRegistry) :
    Op (Except CredentialError ExchangeResult) Empty := do
  let lookup ← selectOr (fun db => (findMember db (secretHash P raw)).map fun mf =>
    TokenLookup.mk mf.1.id mf.1.familyId mf.2.sessionId) (.error .invalidGrant)
  let session ← lockOr .providerSessions (fun s => s.id = lookup.sessionId) (.error .database)
  let family ← lockOr .refreshFamilies (fun f => f.id = lookup.familyId) (.error .database)
  let member ← lockOr .refreshTokenMembers (fun m => m.id = lookup.id) (.error .database)
  ensure (family.clientId = clientId ∧ family.resource = resource) (.error .invalidGrant)
  checked (checkBinding registry (t.instant 0) clientId family.cimdBinding) .error
  ensure (∀ R ∈ registry, R.permitsRefresh clientId family.scopes family.resource)
    (.error .invalidGrant)
  let now := t.now 0
  checked (checkBinding registry (t.instant 1) clientId family.cimdBinding) .error
  if member.consumedAt.isSome then
    let _ ← update .refreshFamilies (fun f => f.id = lookup.familyId) (.revoke now)
    checked (checkBinding registry (t.instant 2) clientId family.cimdBinding) .error
    commit (.error .invalidGrant)
  else
    ensure (¬(family.revokedAt.isSome ∨ session.revokedAt.isSome ∨ family.expiresAt ≤ now ∨
      session.expiresAt ≤ now)) (.error .invalidGrant)
    let successor ← insertRefresh P t 0 lookup.familyId now
    let successorId ← selectOr (fun db => ((db.rows .refreshTokenMembers).find? fun m =>
      m.tokenHash = secretHash P successor).map (·.id)) (.error .database)
    let _ ← update .refreshTokenMembers (fun m => m.id = lookup.id) (.consume now successorId)
    checked (checkBinding registry (t.instant 2) clientId family.cimdBinding) .error
    commit (.ok
      { sessionId := lookup.sessionId, userId := session.userId, clientId := family.clientId
        scopes := family.scopes, resource := family.resource, refreshToken := some successor
        oidcNonce := none, upstreamAuthTime := family.upstreamAuthTime })

def rotateRefresh (raw clientId resource : String) :
    Op (Except CredentialError ExchangeResult) Empty :=
  rotateRefreshBound P t raw clientId resource none

def rotateRefreshRequest (raw clientId : String) (resource : Option String)
    (scopes : Option (List String)) (registry : ClientRegistry) :
    Op (Except CredentialError ExchangeResult) Empty := do
  let stored ← selectOr (fun db => (findMember db (secretHash P raw)).bind fun mf =>
    if mf.2.clientId = clientId then some (mf.2.scopes, mf.2.resource) else none)
    (.error .invalidGrant)
  ensure ((∀ r ∈ resource, r = stored.2) ∧ (∀ s ∈ scopes, sameScopes s stored.1) ∧
    registry.permitsRefresh clientId stored.1 stored.2) (.error .invalidGrant)
  rotateRefreshBound P t raw clientId stored.2 (some registry)

/-! ## 7. Revocation -/

def revokeRefresh (raw clientId : String) : Op (Except CredentialError Unit) Empty := do
  let lookup ← select fun db => (findMember db (secretHash P raw)).map fun mf =>
    RevocationLookup.mk mf.1.familyId mf.2.sessionId mf.2.clientId
  match lookup.filter fun lookup => lookup.clientId = clientId with
  | some lookup =>
      let _ ← lockOr .providerSessions (fun s => s.id = lookup.sessionId) (.error .database)
      let _ ← lockOr .refreshFamilies (fun f => f.id = lookup.familyId) (.error .database)
      let _ ← update .refreshFamilies (fun f => f.id = lookup.familyId) (.revoke (t.now 0))
      commit (.ok ())
  | none => commit (.ok ())

def logout (session : ProviderSession) : Op (Except CredentialError Unit) Empty := do
  let _ ← lockOr .providerSessions (fun s => s.id = session.id) (.error .database)
  let _ ← update .providerSessions (fun s => s.id = session.id) (.revoke (t.now 0))
  updateEach .refreshFamilies (fun f => f.sessionId = session.id)
    (fun f => FamilyRow.revoke (t.rowNow f.id) f) t.scan
  commit (.ok ())

end Store

end Eri
