/-
  File:      Eri/Tables.lean
  Subject:   The tables (migrations/) and what their rows promise.

  Columns no statement reads are left out (`created_at` of users and identities). `digest`
  columns are the hashes credentials are stored under. The layout collects, table by table,

  * `Row.names` -- primary keys, `UNIQUE` columns and the hashes rows are found by;
  * `Row.Later` -- the versions a row goes through: a revocation, a consumption and the
    session of a browser transaction are set once, stages only move along `Stage.Next`, and
    every other column of a grant stays;
  * `Row.Ok` -- `CHECK` and `REFERENCES` constraints, the nullability of the secrets of a
    browser transaction, and that a grant is a copy of what it descends from;
  * `Row.guard` -- the session lock a refresh family is created under, the advisory lock an
    identity is created under.
-/
import Eri.Sql.Rules
import Eri.Registry

namespace Eri

/-! ## 1. Rows -/

structure User where
  id : Uuid

structure ExternalIdentityRow where
  issuer : String
  subject : String
  userId : Uuid

structure ProfileRow where
  userId : Uuid
  name : Option String
  givenName : Option String
  familyName : Option String
  picture : Option String
  verifiedEmail : Option String
  updatedAt : Time

structure SessionRow where
  id : Uuid
  tokenHash : Digest
  userId : Uuid
  authTime : Time
  expiresAt : Time
  revokedAt : Option Time
  upstreamAuthTime : Option Time

/-- The columns of a code that `exchange_code` reads before and after it locks the row. -/
structure CodeRow where
  id : Uuid
  sessionId : Uuid
  clientId : String
  redirectUri : String
  scopes : List String
  resource : String
  codeChallenge : String
  issueRefreshToken : Bool
  oidcNonce : Option String
  upstreamAuthTime : Option Time
  cimdBinding : Option Json

structure AuthorizationCodeRow extends CodeRow where
  codeHash : Digest
  issuedAt : Time
  expiresAt : Time
  consumedAt : Option Time

structure FamilyRow where
  id : Uuid
  sourceCodeId : Uuid
  sessionId : Uuid
  userId : Uuid
  clientId : String
  scopes : List String
  resource : String
  issuedAt : Time
  expiresAt : Time
  revokedAt : Option Time
  upstreamAuthTime : Option Time
  cimdBinding : Option Json

structure MemberRow where
  id : Uuid
  familyId : Uuid
  tokenHash : Digest
  issuedAt : Time
  consumedAt : Option Time
  successorId : Option Uuid

inductive Stage where
  | awaitingStart
  | awaitingGoogle
  | callbackClaimed
  | awaitingConsent
  | approved
  | denied
  | failed
  | expired
  deriving DecidableEq

/-- The columns of a browser transaction that its policy checks read. -/
structure ConsentRow where
  clientId : String
  redirectUri : String
  scopes : List String
  resource : String
  codeChallenge : String
  downstreamState : Option String
  oidcNonce : Option String
  expiresAt : Time
  cimdBinding : Option Json
  allowPreAuthorization : Bool

structure BrowserRow extends ConsentRow where
  id : Uuid
  stage : Stage
  upstreamStateHash : Option Digest
  browserBindingHash : Option Digest
  upstreamNonce : Option String
  upstreamVerifier : Option String
  claimHash : Option Digest
  csrfHash : Option Digest
  sessionId : Option Uuid
  createdAt : Time

structure LogoutRow where
  id : Uuid
  csrfHash : Digest
  sessionId : Uuid
  clientId : String
  postLogoutRedirectUri : String
  downstreamState : Option String
  createdAt : Time
  expiresAt : Time
  consumedAt : Option Time

/-! ## 2. The schema -/

inductive Table where
  | users
  | externalIdentities
  | userProfiles
  | providerSessions
  | authorizationCodes
  | refreshFamilies
  | refreshTokenMembers
  | browserAuthorizations
  | logoutChallenges
  deriving DecidableEq

@[reducible] def Row : Table → Type
  | .users => User
  | .externalIdentities => ExternalIdentityRow
  | .userProfiles => ProfileRow
  | .providerSessions => SessionRow
  | .authorizationCodes => AuthorizationCodeRow
  | .refreshFamilies => FamilyRow
  | .refreshTokenMembers => MemberRow
  | .browserAuthorizations => BrowserRow
  | .logoutChallenges => LogoutRow

/-- An identity is locked by its user, the second key of its table. -/
def Row.key : {t : Table} → Row t → Uuid
  | .users, r => User.id r
  | .externalIdentities, r => ExternalIdentityRow.userId r
  | .userProfiles, r => ProfileRow.userId r
  | .providerSessions, r => SessionRow.id r
  | .authorizationCodes, r => CodeRow.id (AuthorizationCodeRow.toCodeRow r)
  | .refreshFamilies, r => FamilyRow.id r
  | .refreshTokenMembers, r => MemberRow.id r
  | .browserAuthorizations, r => BrowserRow.id r
  | .logoutChallenges, r => LogoutRow.id r

/-- The tables of `migrations/`; advisory locks are taken on the hash of a text. -/
abbrev schema : Sql.Schema where
  Table := Table
  Row := Row
  Key := Uuid
  Advisory := BitVec 64
  key := Row.key
  decTable := inferInstance
  decKey := inferInstance
  decAdvisory := inferInstance

abbrev Db : Type := Sql.Db schema

abbrev Lock : Type := Sql.Lock schema

/-- The hash of `length(issuer)::text || ':' || issuer || subject`; two identities may have one. -/
def identityLock (P : Platform) (issuer subject : String) : BitVec 64 :=
  P.hashText (toString issuer.length ++ ":" ++ issuer ++ subject)

/-! ## 3. Names and guards -/

/-- What is unique in a table: ids, hashes, the source of a family, the subject and the owner
    of an identity. -/
inductive Name where
  | id (u : Uuid)
  | hash (d : Digest)
  | source (code : Uuid)
  | subject (issuer subject : String)
  | owner (user : Uuid)

def Row.names : {t : Table} → Row t → List Name
  | .users, r => [.id (User.id r)]
  | .externalIdentities, r =>
      [.owner (ExternalIdentityRow.userId r),
       .subject (ExternalIdentityRow.issuer r) (ExternalIdentityRow.subject r)]
  | .userProfiles, r => [.owner (ProfileRow.userId r)]
  | .providerSessions, r => [.id (SessionRow.id r), .hash (SessionRow.tokenHash r)]
  | .authorizationCodes, r =>
      [.id (AuthorizationCodeRow.toCodeRow r).id, .hash (AuthorizationCodeRow.codeHash r)]
  | .refreshFamilies, r => [.id (FamilyRow.id r), .source (FamilyRow.sourceCodeId r)]
  | .refreshTokenMembers, r => [.id (MemberRow.id r), .hash (MemberRow.tokenHash r)]
  | .browserAuthorizations, r =>
      .id (BrowserRow.id r) ::
        ((BrowserRow.upstreamStateHash r).toList ++ (BrowserRow.claimHash r).toList).map .hash
  | .logoutChallenges, r => [.id (LogoutRow.id r)]

/-- The name a row has by its key. -/
def Row.keyName : Table → Uuid → Name
  | .externalIdentities, u => .owner u
  | .userProfiles, u => .owner u
  | _, u => .id u

theorem Row.keyName_mem {t : Table} (r : Row t) : Row.keyName t (Row.key r) ∈ Row.names r := by
  cases t <;> exact List.mem_cons_self

def Row.guard (P : Platform) : {t : Table} → Row t → List Lock
  | .refreshFamilies, r => [.row .providerSessions (FamilyRow.sessionId r)]
  | .externalIdentities, r =>
      [.advisory (identityLock P (ExternalIdentityRow.issuer r) (ExternalIdentityRow.subject r))]
  | _, _ => []

/-! ## 4. Versions -/

/-- A column that is set at most once. -/
def SetOnce {α : Type} (a b : Option α) : Prop := ∀ x, a = some x → b = some x

theorem SetOnce.refl {α : Type} (a : Option α) : SetOnce a a := fun _ h => h

theorem SetOnce.trans {α : Type} {a b d : Option α} (h : SetOnce a b) (h' : SetOnce b d) :
    SetOnce a d := fun x hx => h' x (h x hx)

theorem SetOnce.none {α : Type} (b : Option α) : SetOnce Option.none b := fun _ h => by cases h

theorem SetOnce.isSome {α : Type} {a b : Option α} (h : SetOnce a b) (ha : a.isSome = true) :
    b.isSome = true := by
  obtain ⟨x, hx⟩ := Option.isSome_iff_exists.mp ha
  rw [h x hx]
  rfl

/-- `COALESCE(a, b)` sets a column once. -/
theorem SetOnce.coalesce {α : Type} (a : Option α) (x : α) : SetOnce a (some (a.getD x)) := by
  rintro y rfl
  rfl

/-- **The moves of a browser transaction.** -/
inductive Stage.Next : Stage → Stage → Prop where
  | start : Next .awaitingStart .awaitingGoogle
  | claim : Next .awaitingGoogle .callbackClaimed
  | complete : Next .callbackClaimed .awaitingConsent
  | approve : Next .awaitingConsent .approved
  | cancel : Next .awaitingStart .denied
  | denyCallback : Next .callbackClaimed .denied
  | deny : Next .awaitingConsent .denied
  | fail : Next .callbackClaimed .failed
  | expireStart : Next .awaitingGoogle .expired
  | expireCallback : Next .callbackClaimed .expired

abbrev Stage.Reaches : Stage → Stage → Prop := Relation.ReflTransGen Stage.Next

/-- How far along a stage is. -/
def Stage.rank : Stage → Nat
  | .awaitingStart => 0
  | .awaitingGoogle => 1
  | .callbackClaimed => 2
  | .awaitingConsent => 3
  | .approved | .denied | .failed | .expired => 4

theorem Stage.Next.rank_lt {a b : Stage} (h : Stage.Next a b) : a.rank < b.rank := by
  cases h <;> decide

theorem Stage.Reaches.rank_le {a b : Stage} (h : Stage.Reaches a b) :
    a = b ∨ a.rank < b.rank := by
  induction h with
  | refl => exact Or.inl rfl
  | tail _ hs ih =>
      right
      rcases ih with rfl | ih
      · exact hs.rank_lt
      · exact ih.trans hs.rank_lt

/-- A decided transaction stays as it was decided. -/
theorem Stage.Reaches.decided {a b : Stage} (h : Stage.Reaches a b) (ha : a.rank = 4) :
    b = a := by
  rcases h.rank_le with rfl | hlt
  · rfl
  · have : b.rank ≤ 4 := by cases b <;> decide
    omega

namespace SessionRow

structure Later (r r' : SessionRow) : Prop where
  keeps : r' = { r with revokedAt := r'.revokedAt }
  revoked : SetOnce r.revokedAt r'.revokedAt

end SessionRow

namespace AuthorizationCodeRow

structure Later (r r' : AuthorizationCodeRow) : Prop where
  keeps : r' = { r with consumedAt := r'.consumedAt }
  consumed : SetOnce r.consumedAt r'.consumedAt

end AuthorizationCodeRow

namespace FamilyRow

structure Later (r r' : FamilyRow) : Prop where
  keeps : r' = { r with revokedAt := r'.revokedAt }
  revoked : SetOnce r.revokedAt r'.revokedAt

/-- A family copies its source code. -/
structure Descends (f : FamilyRow) (code : CodeRow) : Prop where
  source : f.sourceCodeId = code.id
  session : f.sessionId = code.sessionId
  client : f.clientId = code.clientId
  scopes : f.scopes = code.scopes
  resource : f.resource = code.resource
  upstream : f.upstreamAuthTime = code.upstreamAuthTime
  binding : f.cimdBinding = code.cimdBinding

end FamilyRow

namespace MemberRow

structure Later (r r' : MemberRow) : Prop where
  keeps : r' = { r with consumedAt := r'.consumedAt, successorId := r'.successorId }
  consumed : SetOnce r.consumedAt r'.consumedAt
  successor : SetOnce r.successorId r'.successorId

end MemberRow

namespace BrowserRow

structure Later (r r' : BrowserRow) : Prop where
  id : r'.id = r.id
  consent : r'.toConsentRow = r.toConsentRow
  state : r'.upstreamStateHash = r.upstreamStateHash
  binding : r'.browserBindingHash = r.browserBindingHash
  created : r'.createdAt = r.createdAt
  session : SetOnce r.sessionId r'.sessionId
  stage : Stage.Reaches r.stage r'.stage

/-- **Which columns of a transaction are set at which stage.** -/
structure Secrets (r : BrowserRow) : Prop where
  verifier : r.upstreamVerifier.isSome = true ↔
    r.stage = .awaitingStart ∨ r.stage = .awaitingGoogle
  upstream : r.stage = .awaitingStart ∨ r.stage = .awaitingGoogle →
    r.upstreamNonce.isSome = true ∧ r.upstreamStateHash.isSome = true ∧
      r.browserBindingHash.isSome = true
  claim : r.stage = .callbackClaimed → r.claimHash.isSome = true
  csrf : r.csrfHash.isSome = true ↔ r.stage = .awaitingConsent
  session : r.stage = .awaitingConsent ∨ r.stage = .approved → r.sessionId.isSome = true
  login : r.stage.rank < 3 → r.sessionId = none

end BrowserRow

namespace LogoutRow

structure Later (r r' : LogoutRow) : Prop where
  keeps : r' = { r with consumedAt := r'.consumedAt }
  consumed : SetOnce r.consumedAt r'.consumedAt

end LogoutRow

def Row.Later : {t : Table} → Row t → Row t → Prop
  | .users, r, r' => r' = r
  | .externalIdentities, r, r' => r' = r
  | .userProfiles, r, r' => ProfileRow.userId r' = ProfileRow.userId r
  | .providerSessions, r, r' => SessionRow.Later r r'
  | .authorizationCodes, r, r' => AuthorizationCodeRow.Later r r'
  | .refreshFamilies, r, r' => FamilyRow.Later r r'
  | .refreshTokenMembers, r, r' => MemberRow.Later r r'
  | .browserAuthorizations, r, r' => BrowserRow.Later r r'
  | .logoutChallenges, r, r' => LogoutRow.Later r r'

/-! ## 5. Checks -/

/-- A code copies what it needs of the session it was issued for. -/
structure AuthorizationCodeRow.Ok (db : Db) (c : AuthorizationCodeRow) : Prop where
  lifetime : c.expiresAt ≤ c.issuedAt + 60 * second
  refresh : c.issueRefreshToken = true ↔ "offline_access" ∈ c.scopes
  session : ∃ s ∈ db.rows .providerSessions, SessionRow.id s = c.sessionId ∧
    SessionRow.upstreamAuthTime s = c.upstreamAuthTime ∧ c.expiresAt ≤ SessionRow.expiresAt s

/-- A family descends from a consumed code that allows refresh, and from its session. -/
structure FamilyRow.Ok (db : Db) (f : FamilyRow) : Prop where
  lifetime : f.expiresAt ≤ f.issuedAt + thirtyDays
  code : ∃ c ∈ db.rows .authorizationCodes, f.Descends (AuthorizationCodeRow.toCodeRow c) ∧
    (AuthorizationCodeRow.consumedAt c).isSome = true ∧
    (AuthorizationCodeRow.toCodeRow c).issueRefreshToken = true
  session : ∃ s ∈ db.rows .providerSessions, SessionRow.id s = f.sessionId ∧
    SessionRow.userId s = f.userId ∧ f.expiresAt ≤ SessionRow.expiresAt s

/-- A member belongs to a family, and is consumed when it has a successor. -/
structure MemberRow.Ok (db : Db) (m : MemberRow) : Prop where
  family : ∃ f ∈ db.rows .refreshFamilies, FamilyRow.id f = m.familyId
  chained : m.successorId.isSome = m.consumedAt.isSome

structure BrowserRow.Ok (db : Db) (r : BrowserRow) : Prop where
  lifetime : r.expiresAt ≤ r.createdAt + tenMinutes
  sorted : r.scopes.SortedLT
  binding : ∀ j, r.cimdBinding = some j → ∃ b : CimdSecurityBinding, j = b.toJson
  session : ∀ u, r.sessionId = some u → ∃ s ∈ db.rows .providerSessions, SessionRow.id s = u
  secrets : r.Secrets

def Row.Ok (db : Db) : {t : Table} → Row t → Prop
  | .users, _ => True
  | .externalIdentities, r =>
      ∃ u ∈ db.rows .users, User.id u = ExternalIdentityRow.userId r
  | .userProfiles, r => ∃ u ∈ db.rows .users, User.id u = ProfileRow.userId r
  | .providerSessions, r => SessionRow.expiresAt r ≤ SessionRow.authTime r + thirtyDays
  | .authorizationCodes, r => AuthorizationCodeRow.Ok db r
  | .refreshFamilies, r => FamilyRow.Ok db r
  | .refreshTokenMembers, r => MemberRow.Ok db r
  | .browserAuthorizations, r => BrowserRow.Ok db r
  | .logoutChallenges, r => LogoutRow.expiresAt r ≤ LogoutRow.createdAt r + tenMinutes ∧
      ∃ s ∈ db.rows .providerSessions, SessionRow.id s = LogoutRow.sessionId r

/-! ## 6. The layout -/

theorem Row.keyed {t : Table} {r r' : Row t} (h : Row.key r = Row.key r') :
    ∃ n, n ∈ Row.names r ∧ n ∈ Row.names r' :=
  ⟨_, Row.keyName_mem r, h ▸ Row.keyName_mem r'⟩

theorem Row.later_refl {t : Table} (r : Row t) : Row.Later r r := by
  cases t with
  | users => rfl
  | externalIdentities => rfl
  | userProfiles => rfl
  | providerSessions => exact ⟨rfl, .refl _⟩
  | authorizationCodes => exact ⟨rfl, .refl _⟩
  | refreshFamilies => exact ⟨rfl, .refl _⟩
  | refreshTokenMembers => exact ⟨rfl, .refl _, .refl _⟩
  | browserAuthorizations => exact ⟨rfl, rfl, rfl, rfl, rfl, .refl _, .refl⟩
  | logoutChallenges => exact ⟨rfl, .refl _⟩

theorem Row.later_trans {t : Table} {a b d : Row t} (h : Row.Later a b) (h' : Row.Later b d) :
    Row.Later a d := by
  cases t with
  | users => exact Eq.trans h' h
  | externalIdentities => exact Eq.trans h' h
  | userProfiles => exact Eq.trans h' h
  | providerSessions =>
      exact ⟨by rw [h'.keeps, h.keeps], h.revoked.trans h'.revoked⟩
  | authorizationCodes =>
      exact ⟨by rw [h'.keeps, h.keeps], h.consumed.trans h'.consumed⟩
  | refreshFamilies =>
      exact ⟨by rw [h'.keeps, h.keeps], h.revoked.trans h'.revoked⟩
  | refreshTokenMembers =>
      exact ⟨by rw [h'.keeps, h.keeps], h.consumed.trans h'.consumed,
        h.successor.trans h'.successor⟩
  | browserAuthorizations =>
      exact ⟨h'.id.trans h.id, h'.consent.trans h.consent, h'.state.trans h.state,
        h'.binding.trans h.binding, h'.created.trans h.created, h.session.trans h'.session,
        h.stage.trans h'.stage⟩
  | logoutChallenges =>
      exact ⟨by rw [h'.keeps, h.keeps], h.consumed.trans h'.consumed⟩

theorem Row.later_key {t : Table} {r r' : Row t} (h : Row.Later r r') :
    Row.key r' = Row.key r := by
  cases t with
  | users => rw [show r' = r from h]
  | externalIdentities => rw [show r' = r from h]
  | userProfiles => exact h
  | providerSessions => rw [h.keeps]; rfl
  | authorizationCodes => rw [h.keeps]; rfl
  | refreshFamilies => rw [h.keeps]; rfl
  | refreshTokenMembers => rw [h.keeps]; rfl
  | browserAuthorizations => exact h.id
  | logoutChallenges => rw [h.keeps]; rfl

theorem Row.later_guard (P : Platform) {t : Table} {r r' : Row t} (h : Row.Later r r') :
    Row.guard P r' = Row.guard P r := by
  cases t with
  | externalIdentities => rw [show r' = r from h]
  | refreshFamilies => rw [h.keeps]; rfl
  | _ => rfl

/-- `b` has a later version of every row of `a`. -/
def Progress (a b : Db) : Prop :=
  ∀ t, ∀ r ∈ a.rows t, ∃ r' ∈ b.rows t, Row.Later (t := t) r r'

/-- **Checks survive progress.** -/
theorem Row.ok_mono {a b : Db} {t : Table} {r : Row t} (hp : Progress a b) (h : Row.Ok a r) :
    Row.Ok b r := by
  cases t with
  | users => trivial
  | externalIdentities =>
      obtain ⟨u, hu, e⟩ := h
      obtain ⟨u', hu', hl⟩ := hp _ u hu
      exact ⟨u', hu', (Row.later_key hl).trans e⟩
  | userProfiles =>
      obtain ⟨u, hu, e⟩ := h
      obtain ⟨u', hu', hl⟩ := hp _ u hu
      exact ⟨u', hu', (Row.later_key hl).trans e⟩
  | providerSessions => exact h
  | authorizationCodes =>
      obtain ⟨s, hs, hid, hup, hexp⟩ := h.session
      obtain ⟨s', hs', hl⟩ := hp _ s hs
      have e := SessionRow.Later.keeps hl
      exact ⟨h.lifetime, h.refresh, s', hs', by rw [e]; exact hid, by rw [e]; exact hup,
        by rw [e]; exact hexp⟩
  | refreshFamilies =>
      obtain ⟨c, hc, hdesc, hcons, hissue⟩ := h.code
      obtain ⟨c', hc', hlc⟩ := hp _ c hc
      have ec := AuthorizationCodeRow.Later.keeps hlc
      obtain ⟨s, hs, hid, huser, hexp⟩ := h.session
      obtain ⟨s', hs', hls⟩ := hp _ s hs
      have es := SessionRow.Later.keeps hls
      exact ⟨h.lifetime, ⟨c', hc', by rw [ec]; exact hdesc,
        (AuthorizationCodeRow.Later.consumed hlc).isSome hcons, by rw [ec]; exact hissue⟩,
        s', hs', by rw [es]; exact hid, by rw [es]; exact huser, by rw [es]; exact hexp⟩
  | refreshTokenMembers =>
      obtain ⟨f, hf, e⟩ := h.family
      obtain ⟨f', hf', hl⟩ := hp _ f hf
      exact ⟨⟨f', hf', (Row.later_key hl).trans e⟩, h.chained⟩
  | browserAuthorizations =>
      refine ⟨h.lifetime, h.sorted, h.binding, fun u hu => ?_, h.secrets⟩
      obtain ⟨s, hs, e⟩ := h.session u hu
      obtain ⟨s', hs', hl⟩ := hp _ s hs
      exact ⟨s', hs', (Row.later_key hl).trans e⟩
  | logoutChallenges =>
      obtain ⟨hlife, s, hs, e⟩ := h
      obtain ⟨s', hs', hl⟩ := hp _ s hs
      exact ⟨hlife, s', hs', (Row.later_key hl).trans e⟩

/-- **What the rows promise.** -/
abbrev layout (P : Platform) : Sql.Layout schema where
  Name := Name
  names := Row.names
  later := Row.Later
  ok := Row.Ok
  guard := Row.guard P
  keyed := Row.keyed
  later_refl := Row.later_refl
  later_trans := Row.later_trans
  later_key := Row.later_key
  later_guard := Row.later_guard P
  ok_mono := Row.ok_mono

/-! ## 7. Statements on the tables -/

section Statements

variable {ρ α : Type}

abbrev Op (ρ α : Type) : Type 1 := Sql.Op schema ρ α

abbrev select (q : Db → α) : Op ρ α := Sql.select q

abbrev selectOr (q : Db → Option α) (r : ρ) : Op ρ α := Sql.selectOr q r

abbrev lockOr (t : Table) (p : Row t → Bool) (r : ρ) : Op ρ (Row t) :=
  Sql.lockOr (S := schema) t p r

abbrev update (t : Table) (p : Row t → Bool) (set : Row t → Row t) : Op ρ (List (Row t)) :=
  Sql.update (S := schema) t p set

abbrev updateEach (t : Table) (p : Row t → Bool) (set : Row t → Row t)
    (scan : List Uuid → List Uuid) : Op ρ Unit := Sql.updateEach (S := schema) t p set scan

abbrev insert (t : Table) (row : Row t) : Op ρ (Row t) :=
  Sql.insert (S := schema) t fun _ => row

/-- `INSERT … SELECT` with a column read from another row. -/
abbrev insertWith (t : Table) (row : Db → Row t) : Op ρ (Row t) :=
  Sql.insert (S := schema) t row

abbrev upsert (t : Table) (row : Row t) (set : Row t → Row t) : Op ρ Unit :=
  Sql.upsert (S := schema) t row set

end Statements

end Eri
