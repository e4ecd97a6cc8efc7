/-
  File:      Eri/Logout.lean
  Subject:   Logout challenges (src/logout.rs), statement by statement.
-/
import Eri.Browser

namespace Eri

open Sql (commit abort ensure)

structure LogoutChallenge where
  id : Uuid
  csrf : String
  redirectUri : String

structure LogoutOutcome where
  redirectUri : String
  state : Option String

/-- `tokens::IdClaims`, as far as a logout reads it. -/
structure IdClaims where
  sid : Option Uuid
  sub : Uuid
  aud : String
  exp : Int
  iat : Int

/-- `keys::CLOCK_SKEW_SECONDS`. -/
def clockSkewSeconds : Int := 30

def LogoutRow.consume (now : Time) (r : LogoutRow) : LogoutRow :=
  { r with consumedAt := some now }

/-- The challenge of a session, open for ten minutes. -/
def LogoutRow.begin (id : Uuid) (csrfHash : Digest) (sessionId : Uuid)
    (clientId redirect : String) (state : Option String) (now : Time) : LogoutRow :=
  { id, csrfHash, sessionId, clientId, postLogoutRedirectUri := redirect
    downstreamState := state, createdAt := now, expiresAt := now + tenMinutes
    consumedAt := none }

section Store

variable (P : Platform) (t : Tape)

/-- `LogoutStore::insert`. -/
def insertLogout (session : ProviderSession) (clientId redirect : String)
    (state : Option String) : Op (Except CredentialError LogoutChallenge) Empty := do
  let row ← lockSession session.id .invalidGrant
  ensure (row.active (t.now 0)) (.error .invalidGrant)
  let _ ← insert .logoutChallenges
    (.begin (t.uuid 0) (t.hash P 0) session.id clientId redirect state (t.now 1))
  commit (.ok ⟨t.uuid 0, t.secret 0, redirect⟩)

/-- `LogoutStore::begin`. -/
def beginLogout (session : ProviderSession) (clientId redirect : String)
    (state : Option String) (registry : ClientRegistry) :
    Op (Except CredentialError LogoutChallenge) Empty := do
  ensure (registry.validPostLogoutRedirect clientId redirect) (.error .invalidGrant)
  insertLogout P t session clientId redirect state

def beginLocal (session : ProviderSession) (localUri : String) :
    Op (Except CredentialError LogoutChallenge) Empty :=
  insertLogout P t session "" localUri none

/-- A challenge that can still be answered, for a client that may still be returned to. -/
def LogoutRow.pending (registry : ClientRegistry) (now : Time) (r : LogoutRow) : Bool :=
  r.consumedAt.isNone && decide (r.expiresAt > now) &&
    (r.clientId.isEmpty || registry.validPostLogoutRedirect r.clientId r.postLogoutRedirectUri)

/-- An ID token that was issued to the client of the challenge, before now. -/
def IdClaims.wellTimed (hint : IdClaims) (clientId : String) (now : Time) : Bool :=
  hint.aud = clientId && decide (hint.exp > hint.iat) &&
    decide (hint.iat ≤ timestamp now + clockSkewSeconds)

/-- An ID token of this very session, for a client that may skip the confirmation. -/
def IdClaims.confirms (hint : IdClaims) (registry : ClientRegistry) (clientId : String)
    (s : SessionRow) : Bool :=
  registry.allowsIdTokenLogout clientId && hint.sub = s.userId && hint.sid = some s.id &&
    decide (hint.iat ≥ timestamp s.authTime - clockSkewSeconds)

/-- `finish_inner`. -/
def finishInner (session : ProviderSession) (challenge : LogoutChallenge)
    (registry : ClientRegistry) (hint : Option IdClaims) :
    Op (Except CredentialError (Option LogoutOutcome)) Empty := do
  let sessionRow ← lockSession session.id .invalidGrant
  let row ← lockOr .logoutChallenges (fun r => r.id = challenge.id &&
    r.sessionId = session.id && r.csrfHash = secretHash P challenge.csrf) (.error .invalidGrant)
  let now := t.now 0
  ensure (sessionRow.active now && row.pending registry now) (.error .invalidGrant)
  ensure (∀ h ∈ hint, h.wellTimed row.clientId now) (.error .invalidGrant)
  ensure (∀ h ∈ hint, h.confirms registry row.clientId sessionRow) (.ok none)
  let _ ← update .logoutChallenges (fun r => r.id = challenge.id) (.consume now)
  let _ ← update .providerSessions (fun s => s.id = session.id) (.revoke now)
  updateEach .refreshFamilies (fun f => f.sessionId = session.id) (.revoke now) t.scan
  commit (.ok (some ⟨row.postLogoutRedirectUri, row.downstreamState⟩))

/-- `LogoutStore::finish`: an outcome is always there without a hint. -/
def finish (session : ProviderSession) (challenge : LogoutChallenge)
    (registry : ClientRegistry) : Sql.Tx schema (Except CredentialError LogoutOutcome) :=
  (finishInner P t session challenge registry none).tx.map fun r =>
    r.bind fun o => o.elim (.error .invalidGrant) .ok

def finishHint (session : ProviderSession) (challenge : LogoutChallenge)
    (registry : ClientRegistry) (hint : IdClaims) :
    Op (Except CredentialError (Option LogoutOutcome)) Empty :=
  finishInner P t session challenge registry (some hint)

end Store

end Eri
