/-
  File:      Eri/Browser.lean
  Subject:   Identities (src/database.rs, src/identity.rs) and the browser store
             (src/browser.rs), statement by statement.

  A policy check reads the monotonic clock twice, once for the binding and once for the
  request (`revalidate`). `complete_callback` works in a transaction with a savepoint: the
  identity, the profile and the session are written after the savepoint, and a transaction
  that expired meanwhile goes back to it before the row is marked.
-/
import Eri.Credentials

namespace Eri

open Sql (commit abort ensure checked savepoint releaseSavepoint rollbackToSavepoint)

/-! ## 1. Values -/

inductive BrowserError where
  | metadataExpired
  | invalid
  | policyChanged
  | database
  deriving DecidableEq

structure BrowserStart where
  transactionId : Uuid
  upstreamState : String
  browserBinding : String
  upstreamNonce : String
  upstreamVerifier : String

structure ConsentHandle where
  transactionId : Uuid
  csrf : String

structure LoginCompletion where
  session : ProviderSession
  consent : ConsentHandle

structure ConsentOutcome where
  code : String
  redirectUri : String
  downstreamState : Option String

structure DenialOutcome where
  redirectUri : String
  downstreamState : Option String

structure ConsentView where
  transactionId : Uuid
  csrf : String
  clientName : String
  scopes : List String
  resource : String
  redirectUri : String
  account : String

structure UserProfile where
  name : Option String
  givenName : Option String
  familyName : Option String
  picture : Option String
  verifiedEmail : Option String

structure VerifiedGoogleIdentity where
  subject : String
  name : Option String
  givenName : Option String
  familyName : Option String
  picture : Option String
  verifiedEmail : Option String
  authTime : Option Int

def googleIssuer : String := "https://accounts.google.com"

/-- `DateTime::from_timestamp(v, 0)`, for the dates chrono represents. -/
def fromTimestamp (v : Int) : Option Time :=
  if -8334601228800 ≤ v ∧ v ≤ 8210266876799 then some (v * second) else none

def VerifiedGoogleIdentity.upstreamAuthTime (i : VerifiedGoogleIdentity) : Option Time :=
  i.authTime.bind fromTimestamp

/-- A `uuid` as text: 32 hexadecimal digits in groups of 8, 4, 4, 4 and 12. -/
def Uuid.toText (u : Uuid) : String :=
  let digits := (List.range 32).map fun i =>
    let d := u / 16 ^ (31 - i) % 16
    if d < 10 then Char.ofNat (48 + d) else Char.ofNat (87 + d)
  let group (from_ n : Nat) := String.ofList ((digits.drop from_).take n)
  group 0 8 ++ "-" ++ group 8 4 ++ "-" ++ group 12 4 ++ "-" ++ group 16 4 ++ "-" ++ group 20 12

/-! ## 2. Identities -/

section Identity

variable (P : Platform) (t : Tape)

def findIdentity (db : Db) (issuer subject : String) : Option Uuid :=
  ((db.rows .externalIdentities).find? fun i => i.issuer = issuer && i.subject = subject).map
    (·.userId)

/-- The user of an identity, created with `uuid 1` when it is new. -/
def findOrCreateUser {ρ : Type} (issuer subject : String) : Op ρ Uuid := do
  let existing ← select fun db => findIdentity db issuer subject
  match existing with
  | some user => pure user
  | none =>
      let user : User := ⟨t.uuid 1⟩
      let _ ← insert .users user
      let identity : ExternalIdentityRow := ⟨issuer, subject, t.uuid 1⟩
      let _ ← insert .externalIdentities identity
      pure (t.uuid 1)

def ProfileRow.of (user : Uuid) (i : VerifiedGoogleIdentity) (now : Time) : ProfileRow :=
  { userId := user, name := i.name, givenName := i.givenName, familyName := i.familyName
    picture := i.picture, verifiedEmail := i.verifiedEmail, updatedAt := now }

/-- `upsert_verified_google_identity_tx`. -/
def upsertVerifiedGoogleIdentity {ρ : Type} (identity : VerifiedGoogleIdentity) (now : Time) :
    Op ρ Uuid := do
  let user ← findOrCreateUser t googleIssuer identity.subject
  upsert .userProfiles (ProfileRow.of user identity now) fun r => .of r.userId identity now
  pure user

/-- `lock_verified_google_identity_tx`. -/
def lockVerifiedGoogleIdentity {ρ : Type} (identity : VerifiedGoogleIdentity) : Op ρ Unit :=
  Sql.advisoryLock (S := schema) (identityLock P googleIssuer identity.subject)

def findOrCreateExternalIdentity (issuer subject : String) : Op Uuid Empty := do
  Sql.advisoryLock (S := schema) (identityLock P issuer subject)
  let user ← findOrCreateUser t issuer subject
  commit user

def findOrCreateVerifiedGoogleIdentity (identity : VerifiedGoogleIdentity) :
    Op AuthenticatedUser Empty := do
  lockVerifiedGoogleIdentity P identity
  let user ← upsertVerifiedGoogleIdentity t identity (t.now 0)
  commit ⟨user, identity.upstreamAuthTime⟩

def findProfile (db : Db) (user : Uuid) : Option ProfileRow :=
  (db.rows .userProfiles).find? fun p => p.userId = user

def userProfile (user : Uuid) : Op (Option UserProfile) Empty := do
  let row ← select fun db => findProfile db user
  commit (row.map fun p => ⟨p.name, p.givenName, p.familyName, p.picture, p.verifiedEmail⟩)

end Identity

/-! ## 3. Columns -/

namespace BrowserRow

def awaitGoogle (r : BrowserRow) : BrowserRow := { r with stage := .awaitingGoogle }

def cancel (r : BrowserRow) : BrowserRow :=
  { r with stage := .denied, upstreamVerifier := none, upstreamNonce := none }

def expireStart (r : BrowserRow) : BrowserRow :=
  { r with stage := .expired, upstreamVerifier := none }

def claim (hash : Digest) (r : BrowserRow) : BrowserRow :=
  { r with stage := .callbackClaimed, claimHash := some hash, upstreamVerifier := none }

def fail (r : BrowserRow) : BrowserRow := { r with stage := .failed }

def denyCallback (r : BrowserRow) : BrowserRow := { r with stage := .denied, claimHash := none }

def expireCallback (r : BrowserRow) : BrowserRow := { r with stage := .expired }

def complete (session : Uuid) (csrf : Digest) (r : BrowserRow) : BrowserRow :=
  { r with stage := .awaitingConsent, sessionId := some session, csrfHash := some csrf
           claimHash := none }

def approve (r : BrowserRow) : BrowserRow := { r with stage := .approved, csrfHash := none }

def deny (r : BrowserRow) : BrowserRow := { r with stage := .denied, csrfHash := none }

end BrowserRow

/-- The row of a transaction before anybody signed in, or after the user is known. -/
def ConsentRow.of (pending : PendingAuthorizationGrant)
    (downstreamState oidcNonce : Option String) (allowPreAuthorization : Bool) (now : Time) :
    ConsentRow :=
  { clientId := pending.clientId, redirectUri := pending.redirectUri, scopes := pending.scopes
    resource := pending.resource, codeChallenge := pending.codeChallenge, downstreamState
    oidcNonce, expiresAt := now + tenMinutes, cimdBinding := pending.cimdBindingJson
    allowPreAuthorization }

/-- A transaction that waits for Google. -/
def BrowserRow.google (id : Uuid) (state binding : Digest) (nonce verifier : String)
    (consent : ConsentRow) (now : Time) : BrowserRow :=
  { consent with
    id, stage := .awaitingStart, upstreamStateHash := some state
    browserBindingHash := some binding, upstreamNonce := some nonce
    upstreamVerifier := some verifier, claimHash := none, csrfHash := none, sessionId := none
    createdAt := now }

/-- A transaction of a known session. -/
def BrowserRow.authenticated (id : Uuid) (csrf : Digest) (session : Uuid)
    (consent : ConsentRow) (now : Time) : BrowserRow :=
  { consent with
    id, stage := .awaitingConsent, upstreamStateHash := none, browserBindingHash := none
    upstreamNonce := none, upstreamVerifier := none, claimHash := none, csrfHash := some csrf
    sessionId := some session, createdAt := now }

/-! ## 4. Checks -/

def policyError : OAuthError → BrowserError
  | .metadataExpired => .metadataExpired
  | _ => .policyChanged

/-- A non-null column. -/
def nonNull {α : Type} (a : Option α) : Except BrowserError α :=
  match a with
  | some a => .ok a
  | none => .error .database

def revalidate (P : Platform) (R : ClientRegistry) (now now' : Instant) (row : ConsentRow) :
    Except BrowserError PendingAuthorizationGrant := do
  (R.validateBinding now row.clientId row.cimdBinding).mapError policyError
  (R.validatePendingParts P now' row.clientId row.redirectUri "code" "S256" row.codeChallenge
    row.scopes (some row.resource)).mapError policyError

def validateOptionalRegistry (P : Platform) (registry : Option ClientRegistry)
    (now now' : Instant) (row : ConsentRow) : Except BrowserError Unit :=
  match registry with
  | some R => (revalidate P R now now' row).map fun _ => ()
  | none => if row.cimdBinding.isNone then .ok () else .error .policyChanged

/-- `ensure_fresh` of a locked session and, when there is one, of a transaction. -/
def freshSession (s : SessionRow) (browserExpiry : Option Time) (now : Time) : Bool :=
  s.active now && browserExpiry.all fun e => decide (e > now)

section Store

variable (P : Platform) (t : Tape)

/-! ## 5. Until Google -/

def transactionClientId (id : Uuid) : Op (Except BrowserError String) Empty := do
  let row ← selectOr (fun db => (db.rows .browserAuthorizations).find? fun r => r.id = id)
    (.error .invalid)
  commit (.ok row.clientId)

def callbackClientId (claim : String) : Op (Except BrowserError String) Empty := do
  let row ← selectOr (fun db => (db.rows .browserAuthorizations).find? fun r =>
    r.claimHash = some (secretHash P claim) && r.stage = .callbackClaimed) (.error .invalid)
  commit (.ok row.clientId)

/-- `begin_google_with_pre_authorization`; `begin_google` passes `false`. -/
def beginGoogle (pending : PendingAuthorizationGrant) (downstreamState oidcNonce : Option String)
    (allowPreAuthorization : Bool) : Op (Except BrowserError BrowserStart) Empty := do
  checked (pending.ensureFresh (t.instant 0)) fun e => .error (policyError e)
  let _ ← insert .browserAuthorizations (.google (t.uuid 0) (t.hash P 0) (t.hash P 1)
    (t.secret 2) (t.secret 3)
    (.of pending downstreamState oidcNonce allowPreAuthorization (t.now 0)) (t.now 0))
  checked (pending.ensureFresh (t.instant 1)) fun e => .error (policyError e)
  commit (.ok ⟨t.uuid 0, t.secret 0, t.secret 1, t.secret 2, t.secret 3⟩)

/-- A transaction a browser holds the two secrets of. -/
def BrowserRow.heldBy (state binding : String) (r : BrowserRow) : Bool :=
  r.upstreamStateHash = some (secretHash P state) &&
    r.browserBindingHash = some (secretHash P binding)

/-- One statement: the row is updated before its columns are read. -/
def startGoogle (transactionId : Uuid) (state binding : String) :
    Op (Except BrowserError (String × String)) Empty := do
  let rows ← update .browserAuthorizations (fun r => r.id = transactionId &&
    r.heldBy P state binding && r.stage = .awaitingStart && decide (r.expiresAt > t.now 0))
    .awaitGoogle
  match rows with
  | [] => commit (.error .invalid)
  | row :: _ => commit do
      let nonce ← nonNull row.upstreamNonce
      let verifier ← nonNull row.upstreamVerifier
      pure (nonce, verifier)

/-- `cancel_google_bound`. -/
def cancelGoogle (transactionId : Uuid) (state binding : String)
    (registry : Option ClientRegistry) : Op (Except BrowserError DenialOutcome) Empty := do
  let row ← lockOr .browserAuthorizations (fun r => r.id = transactionId &&
    r.heldBy P state binding && r.stage = .awaitingStart && decide (r.expiresAt > t.now 0))
    (.error .invalid)
  checked (validateOptionalRegistry P registry (t.instant 0) (t.instant 1) row.toConsentRow)
    .error
  let _ ← update .browserAuthorizations (fun r => r.id = transactionId) .cancel
  checked (validateOptionalRegistry P registry (t.instant 2) (t.instant 3) row.toConsentRow)
    .error
  commit (.ok ⟨row.redirectUri, row.downstreamState⟩)

/-- `lock_session`. -/
def lockSession {ε α : Type} (id : Uuid) (invalid : ε) : Op (Except ε α) SessionRow :=
  lockOr .providerSessions (fun s => s.id = id) (.error invalid)

/-- `begin_authenticated_with_pre_authorization`; `begin_authenticated` passes `false`. -/
def beginAuthenticated (session : ProviderSession) (pending : PendingAuthorizationGrant)
    (downstreamState oidcNonce : Option String) (allowPreAuthorization : Bool) :
    Op (Except BrowserError ConsentHandle) Empty := do
  let sessionRow ← lockSession session.id .invalid
  ensure (freshSession sessionRow none (t.now 0)) (.error .invalid)
  checked (pending.ensureFresh (t.instant 0)) fun e => .error (policyError e)
  let _ ← insert .browserAuthorizations (.authenticated (t.uuid 0) (t.hash P 0) session.id
    (.of pending downstreamState oidcNonce allowPreAuthorization (t.now 1)) (t.now 1))
  checked (pending.ensureFresh (t.instant 1)) fun e => .error (policyError e)
  commit (.ok ⟨t.uuid 0, t.secret 0⟩)

def sessionUpstreamAuthTime (session : ProviderSession) :
    Op (Except BrowserError (Option Time)) Empty := do
  let sessionRow ← lockSession session.id .invalid
  ensure (freshSession sessionRow none (t.now 0)) (.error .invalid)
  commit (.ok sessionRow.upstreamAuthTime)

/-! ## 6. The callback -/

def claimCallback (state binding : String) :
    Op (Except BrowserError (String × String × String)) Empty := do
  let row ← lockOr .browserAuthorizations
    (fun r => r.heldBy P state binding && r.stage = .awaitingGoogle) (.error .invalid)
  let verifier ← checked (nonNull row.upstreamVerifier) .error
  let nonce ← checked (nonNull row.upstreamNonce) .error
  if row.expiresAt ≤ t.now 0 then
    let _ ← update .browserAuthorizations (fun r => r.id = row.id) .expireStart
    commit (.error .invalid)
  else
    let _ ← update .browserAuthorizations (fun r => r.id = row.id) (.claim (t.hash P 0))
    commit (.ok (t.secret 0, verifier, nonce))

/-- A transaction whose callback was claimed with a secret. -/
def BrowserRow.claimedBy (claim : String) (r : BrowserRow) : Bool :=
  r.claimHash = some (secretHash P claim) && r.stage = .callbackClaimed

def failCallback (claim : String) : Op (Except BrowserError Unit) Empty := do
  let changed ← update .browserAuthorizations (fun r => r.claimedBy P claim) .fail
  commit (if changed.length = 1 then .ok () else .error .invalid)

def denyCallback (claim : String) (registry : ClientRegistry) :
    Op (Except BrowserError DenialOutcome) Empty := do
  let row ← lockOr .browserAuthorizations (fun r => r.claimedBy P claim) (.error .invalid)
  ensure (¬row.expiresAt ≤ t.now 0) (.error .invalid)
  let _ ← checked (revalidate P registry (t.instant 0) (t.instant 1) row.toConsentRow) .error
  let _ ← update .browserAuthorizations
    (fun r => r.claimHash = some (secretHash P claim)) .denyCallback
  let _ ← checked (revalidate P registry (t.instant 2) (t.instant 3) row.toConsentRow) .error
  commit (.ok ⟨row.redirectUri, row.downstreamState⟩)

/-- A check inside the savepoint: an error rolls both transactions back. -/
def checkedStaged {ε α β : Type} (x : Except ε α) : Op (Except ε β) α :=
  match x with
  | .ok a => pure a
  | .error e => do
      rollbackToSavepoint
      abort (.error e)

/-- `complete_callback_bound`. -/
def completeCallback (claim : String) (identity : VerifiedGoogleIdentity)
    (sessionLifetime : Duration) (registry : Option ClientRegistry) :
    Op (Except BrowserError LoginCompletion) Empty := do
  let seconds ← checked
    (boundedSeconds BrowserError.invalid sessionLifetime (30 * 24 * 60 * 60)) .error
  let row ← lockOr .browserAuthorizations (fun r => r.claimedBy P claim) (.error .invalid)
  let policyRow ← lockOr .browserAuthorizations (fun r => r.id = row.id) (.error .database)
  checked (validateOptionalRegistry P registry (t.instant 0) (t.instant 1)
    policyRow.toConsentRow) .error
  savepoint
  lockVerifiedGoogleIdentity P identity
  checkedStaged (validateOptionalRegistry P registry (t.instant 2) (t.instant 3)
    policyRow.toConsentRow)
  let profileTime := t.now 0
  let user ← upsertVerifiedGoogleIdentity t identity profileTime
  let session ← insert .providerSessions (.start (t.uuid 0) (t.hash P 0) user
    identity.upstreamAuthTime profileTime seconds)
  if row.expiresAt ≤ t.now 1 then
    rollbackToSavepoint
    let _ ← update .browserAuthorizations (fun r => r.id = row.id) .expireCallback
    commit (.error .invalid)
  else
    checkedStaged (validateOptionalRegistry P registry (t.instant 4) (t.instant 5)
      policyRow.toConsentRow)
    releaseSavepoint
    let changed ← update .browserAuthorizations
      (fun r => r.id = row.id && r.stage = .callbackClaimed) (.complete (t.uuid 0) (t.hash P 1))
    ensure (changed.length = 1) (.error .invalid)
    checked (validateOptionalRegistry P registry (t.instant 6) (t.instant 7)
      policyRow.toConsentRow) .error
    commit (.ok ⟨⟨t.secret 0, t.uuid 0, session.expiresAt⟩, ⟨row.id, t.secret 1⟩⟩)

/-! ## 7. Consent -/

/-- `lock_consent`. -/
def lockConsent {α : Type} (handle : ConsentHandle) (session : Uuid) :
    Op (Except BrowserError α) BrowserRow :=
  lockOr .browserAuthorizations (fun r => r.id = handle.transactionId &&
    r.sessionId = some session && r.csrfHash = some (secretHash P handle.csrf) &&
    r.stage = .awaitingConsent) (.error .invalid)

/-- Issue the code of a consented transaction and close it. -/
def issueConsented {ρ : Type} (session : ProviderSession) (handle : ConsentHandle)
    (sessionRow : SessionRow) (row : BrowserRow) (grant : ValidatedAuthorizationGrant) :
    Op ρ String := do
  let code ← insertAuthorizationCode P t session.id grant row.oidcNonce
    sessionRow.upstreamAuthTime 60 (t.now 1)
  let _ ← update .browserAuthorizations (fun r => r.id = handle.transactionId) .approve
  pure code

def approve (session : ProviderSession) (handle : ConsentHandle) (registry : ClientRegistry) :
    Op (Except BrowserError ConsentOutcome) Empty := do
  let sessionRow ← lockSession session.id .invalid
  let row ← lockConsent P handle session.id
  ensure (freshSession sessionRow (some row.expiresAt) (t.now 0)) (.error .invalid)
  let pending ← checked (revalidate P registry (t.instant 0) (t.instant 1) row.toConsentRow)
    .error
  let grant ← checked (pending.approve (t.instant 2) true) fun e => .error (policyError e)
  let code ← issueConsented P t session handle sessionRow row grant
  let _ ← checked (revalidate P registry (t.instant 3) (t.instant 4) row.toConsentRow) .error
  commit (.ok ⟨code, row.redirectUri, row.downstreamState⟩)

def approvePreAuthorized (session : ProviderSession) (handle : ConsentHandle)
    (registry : ClientRegistry) : Op (Except BrowserError (Option ConsentOutcome)) Empty := do
  let sessionRow ← lockSession session.id .invalid
  let row ← lockConsent P handle session.id
  ensure (freshSession sessionRow (some row.expiresAt) (t.now 0)) (.error .invalid)
  let pending ← checked (revalidate P registry (t.instant 0) (t.instant 1) row.toConsentRow)
    .error
  ensure (row.allowPreAuthorization && registry.preAuthorizes pending) (.ok none)
  let grant ← checked (pending.approve (t.instant 2) true) fun e => .error (policyError e)
  let code ← issueConsented P t session handle sessionRow row grant
  let current ← checked (revalidate P registry (t.instant 3) (t.instant 4) row.toConsentRow)
    .error
  ensure (registry.preAuthorizes current) (.error .policyChanged)
  ensure (freshSession sessionRow (some row.expiresAt) (t.now 2)) (.error .invalid)
  commit (.ok (some ⟨code, row.redirectUri, row.downstreamState⟩))

/-- How the consent page names the user. -/
def accountText (profile : Option ProfileRow) (user : Uuid) : String :=
  match profile with
  | some { verifiedEmail := some email, .. } => email
  | some { name := some name, .. } => name ++ " · " ++ user.toText
  | _ => user.toText

def consentView (session : ProviderSession) (handle : ConsentHandle)
    (registry : ClientRegistry) : Op (Except BrowserError ConsentView) Empty := do
  let sessionRow ← lockSession session.id .invalid
  let row ← lockConsent P handle session.id
  ensure (freshSession sessionRow (some row.expiresAt) (t.now 0)) (.error .invalid)
  let _ ← checked (revalidate P registry (t.instant 0) (t.instant 1) row.toConsentRow) .error
  let clientName ← checked (ε := Unit) ((registry.displayName row.clientId).elim (.error ()) .ok)
    fun _ => .error .policyChanged
  let profile ← select fun db => findProfile db sessionRow.userId
  let _ ← checked (revalidate P registry (t.instant 2) (t.instant 3) row.toConsentRow) .error
  commit (.ok
    { transactionId := handle.transactionId, csrf := handle.csrf, clientName
      scopes := row.scopes, resource := row.resource, redirectUri := row.redirectUri
      account := accountText profile sessionRow.userId })

/-- `deny_bound`. -/
def deny (session : ProviderSession) (handle : ConsentHandle)
    (registry : Option ClientRegistry) : Op (Except BrowserError DenialOutcome) Empty := do
  let sessionRow ← lockSession session.id .invalid
  let row ← lockConsent P handle session.id
  ensure (freshSession sessionRow (some row.expiresAt) (t.now 0)) (.error .invalid)
  checked (validateOptionalRegistry P registry (t.instant 0) (t.instant 1) row.toConsentRow)
    .error
  let _ ← update .browserAuthorizations (fun r => r.id = handle.transactionId) .deny
  checked (validateOptionalRegistry P registry (t.instant 2) (t.instant 3) row.toConsentRow)
    .error
  commit (.ok ⟨row.redirectUri, row.downstreamState⟩)

end Store

end Eri
