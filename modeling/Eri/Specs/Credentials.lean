/-
  File:      Eri/Specs/Credentials.lean
  Subject:   What each call of the credential store returns and leaves, run alone on any rows.

  One theorem for each operation lists every way it can end. `CodePresented` and
  `TokenPresented` collect what an exchange and a rotation have established when they look at
  `consumed_at`; from there a used credential ends in the replay (`exchange_replay`,
  `rotate_replay`), an unused one in a grant or an error that leaves the rows alone.
-/
import Eri.Writes

namespace Eri

open Sql

variable {P : Platform} {t : Tape} {db db' : Db}

/-! ## 1. Sessions and codes -/

theorem createProviderSession_run {user : AuthenticatedUser} {lifetime : Duration}
    {r : Except CredentialError ProviderSession}
    (h : (createProviderSession P t user lifetime).tx.run db = (r, db')) :
    (∃ e, r = .error e ∧ db' = db) ∨
      ∃ seconds, boundedSeconds CredentialError.invalidLifetime lifetime (30 * 24 * 60 * 60) =
        .ok seconds ∧ r = .ok ⟨t.secret 0, t.uuid 0, (t.now 0).after seconds⟩ ∧
        db' = db.insert .providerSessions (.start (t.uuid 0) (t.hash P 0) user.id
          user.upstreamAuthTime (t.now 0) seconds) := by
  refine Tx.run_of_post h ((post_checked ..).mpr ⟨fun seconds hs => ?_,
    fun e _ => Or.inl ⟨e, rfl, rfl⟩⟩)
  exact Or.inr ⟨seconds, hs, rfl, rfl⟩

theorem issueAuthorizationCode_run {session : ProviderSession}
    {grant : ValidatedAuthorizationGrant} {lifetime : Duration} {r : Except CredentialError String}
    (h : (issueAuthorizationCode P t session grant lifetime).tx.run db = (r, db')) :
    (∃ e, r = .error e ∧ db' = db) ∨
      ∃ seconds s, boundedSeconds CredentialError.invalidLifetime lifetime 60 = .ok seconds ∧
        findSession db session.id = some s ∧ s.active (t.now 0) = true ∧
        r = .ok (t.secret 0) ∧ db' = db.insert .authorizationCodes (.issue (t.uuid 0)
          (t.hash P 0) session.id grant none s.upstreamAuthTime (t.now 1) seconds (some s)) := by
  refine Tx.run_of_post h ((post_checked ..).mpr ⟨fun seconds hs => ?_,
    fun e _ => Or.inl ⟨e, rfl, rfl⟩⟩)
  refine (post_lockOr ..).mpr ⟨fun s hfind => ?_, fun _ => Or.inl ⟨_, rfl, rfl⟩⟩
  have hfind : findSession db session.id = some s := hfind
  refine (post_selectOr ..).mpr ⟨fun active ha => ?_, fun _ => Or.inl ⟨_, rfl, rfl⟩⟩
  refine (post_ensure ..).mpr ⟨fun hactive => ?_, fun _ => Or.inl ⟨_, rfl, rfl⟩⟩
  refine (post_selectOr ..).mpr ⟨fun upstream hu => ?_, fun _ => Or.inl ⟨_, rfl, rfl⟩⟩
  simp only [hfind, Option.map_some, Option.some.injEq] at ha hu
  subst ha hu
  refine (post_checked ..).mpr ⟨fun _ _ => ?_, fun _ _ => Or.inl ⟨_, rfl, rfl⟩⟩
  refine (post_insert ..).mpr ?_
  refine (post_checked ..).mpr ⟨fun _ _ => ?_, fun _ _ => Or.inl ⟨_, rfl, rfl⟩⟩
  refine (post_commit ..).mpr (Or.inr ⟨seconds, s, hs, hfind, hactive, rfl, ?_⟩)
  rw [hfind]

/-! ## 2. Exchange -/

/-- The arguments of `exchange_code_bound`. -/
structure ExchangeArgs where
  lease : Nat
  raw : String
  clientId : String
  redirectUri : String
  resource : String
  verifier : String
  registry : Option ClientRegistry

def exchangeBound (P : Platform) (t : Tape) (a : ExchangeArgs) :
    Op (Except CredentialError ExchangeResult) Empty :=
  exchangeCodeBound P t a.lease a.raw a.clientId a.redirectUri a.resource a.verifier a.registry

/-- The columns of a code match what the caller presents. -/
structure CodeRow.Matches (P : Platform) (a : ExchangeArgs) (c : CodeRow) : Prop where
  client : c.clientId = a.clientId
  redirect : c.redirectUri = a.redirectUri
  resource : c.resource = a.resource
  verifier : verifyS256 P a.verifier c.codeChallenge = true

/-- **A code was presented with what it was issued for, under a policy that still allows it.**
    `seen` is the row read by its hash, `code` the row locked by its id. -/
structure CodePresented (P : Platform) (t : Tape) (a : ExchangeArgs) (db : Db)
    (seen code : AuthorizationCodeRow) (session : SessionRow) : Prop where
  found : (db.rows .authorizationCodes).find? (fun c => c.codeHash = secretHash P a.raw) =
    some seen
  matching : seen.Matches P a
  lockedSession : findSession db seen.sessionId = some session
  locked : (db.rows .authorizationCodes).find? (fun c => c.id = seen.id) = some code
  sameSession : code.sessionId = seen.sessionId
  stillMatching : code.Matches P a
  binding : ∀ k ∈ [0, 2, 3],
    checkBinding a.registry (t.instant (a.lease + k)) a.clientId code.cimdBinding = .ok ()
  policy : validateCode P a.registry (t.instant (a.lease + 1)) a.clientId a.redirectUri
    code.codeChallenge code.scopes a.resource = .ok ()

/-- What the replay of a consumed code leaves. -/
def replayedRows (code : AuthorizationCodeRow) (now : Time) (db : Db) : Db :=
  db.update .refreshFamilies (fun f => f.sourceCodeId = code.id) (.revoke now)

/-- What an exchange leaves. -/
def exchangedRows (P : Platform) (t : Tape) (code : AuthorizationCodeRow)
    (session : SessionRow) (db : Db) : Db :=
  let db := db.update .authorizationCodes (fun c => c.id = code.id) (.consume (t.now 0))
  if code.issueRefreshToken then
    (db.insert .refreshFamilies (.descend (t.uuid 0) code.toCodeRow session (t.now 0))).insert
      .refreshTokenMembers (.issue (t.uuid 1) (t.uuid 0) (t.hash P 0) (t.now 0))
  else db

def exchangedResult (t : Tape) (code : AuthorizationCodeRow) (session : SessionRow) :
    ExchangeResult :=
  { sessionId := code.sessionId, userId := session.userId, clientId := code.clientId
    scopes := code.scopes, resource := code.resource
    refreshToken := if code.issueRefreshToken then some (t.secret 0) else none
    oidcNonce := code.oidcNonce, upstreamAuthTime := code.upstreamAuthTime }

/-- A code that may be exchanged at `now`. -/
structure AuthorizationCodeRow.Redeemable (code : AuthorizationCodeRow) (session : SessionRow)
    (now : Time) : Prop where
  unconsumed : code.consumedAt = none
  unexpired : now < code.expiresAt
  active : session.active now = true

/-- **How an exchange ends.** -/
theorem exchangeBound_run {a : ExchangeArgs} {r : Except CredentialError ExchangeResult}
    (h : (exchangeBound P t a).tx.run db = (r, db')) :
    (∃ e, r = .error e ∧ db' = db) ∨
      ∃ seen code session, CodePresented P t a db seen code session ∧
        ((code.consumedAt.isSome = true ∧ r = .error .invalidGrant ∧
            db' = replayedRows code (t.now 0) db) ∨
          (code.Redeemable session (t.now 0) ∧ r = .ok (exchangedResult t code session) ∧
            db' = exchangedRows P t code session db)) := by
  refine Tx.run_of_post h ((post_selectOr ..).mpr ⟨fun row hseen => ?_,
    fun _ => Or.inl ⟨_, rfl, rfl⟩⟩)
  obtain ⟨seen, hfound, rfl⟩ := Option.map_eq_some_iff.mp hseen
  refine (post_ensure ..).mpr ⟨fun hmatch => ?_, fun _ => Or.inl ⟨_, rfl, rfl⟩⟩
  refine (post_lockOr ..).mpr ⟨fun session hsession => ?_, fun _ => Or.inl ⟨_, rfl, rfl⟩⟩
  refine (post_lockOr ..).mpr ⟨fun locked hlocked => ?_, fun _ => Or.inl ⟨_, rfl, rfl⟩⟩
  refine (post_lockOr ..).mpr ⟨fun code hcode => ?_, fun _ => Or.inl ⟨_, rfl, rfl⟩⟩
  -- both statements lock the same row
  have e : locked = code := Option.some.inj (hlocked.symm.trans hcode)
  subst e
  refine (post_ensure ..).mpr ⟨fun hsame => ?_, fun _ => Or.inl ⟨_, rfl, rfl⟩⟩
  refine (post_checked ..).mpr ⟨fun _ hb₀ => ?_, fun _ _ => Or.inl ⟨_, rfl, rfl⟩⟩
  refine (post_checked ..).mpr ⟨fun _ hpolicy => ?_, fun _ _ => Or.inl ⟨_, rfl, rfl⟩⟩
  refine (post_checked ..).mpr ⟨fun _ hb₂ => ?_, fun _ _ => Or.inl ⟨_, rfl, rfl⟩⟩
  have hp : checkBinding a.registry (t.instant (a.lease + 3)) a.clientId locked.cimdBinding =
      .ok () → CodePresented P t a db seen locked session := fun hb₃ =>
    { found := hfound
      matching := ⟨hmatch.1, hmatch.2.1, hmatch.2.2.1, hmatch.2.2.2⟩
      lockedSession := hsession
      locked := hlocked
      sameSession := hsame.1
      stillMatching := ⟨hsame.2.1, hsame.2.2.1, hsame.2.2.2.1, hsame.2.2.2.2⟩
      binding := by simp [hb₀, hb₂, hb₃]
      policy := hpolicy }
  refine post_ite.mpr ⟨fun hconsumed => ?_, fun hopen => ?_⟩
  · refine (post_update ..).mpr ?_
    refine (post_checked ..).mpr ⟨fun _ hb₃ => ?_, fun _ _ => Or.inl ⟨_, rfl, rfl⟩⟩
    exact Or.inr ⟨seen, locked, session, hp hb₃, Or.inl ⟨hconsumed, rfl, rfl⟩⟩
  · refine (post_ensure ..).mpr ⟨fun hlive => ?_, fun _ => Or.inl ⟨_, rfl, rfl⟩⟩
    have hredeem : locked.Redeemable session (t.now 0) := by
      simp only [not_or, not_le] at hlive
      refine ⟨by simpa using hopen, hlive.1, ?_⟩
      simp [SessionRow.active, hlive.2.1, Option.not_isSome_iff_eq_none.mp hlive.2.2]
    refine (post_update ..).mpr (post_ite.mpr ⟨fun hissue => ?_, fun hissue => ?_⟩)
    · refine (post_insert ..).mpr ((post_insert ..).mpr ?_)
      refine (post_checked ..).mpr ⟨fun _ hb₃ => ?_, fun _ _ => Or.inl ⟨_, rfl, rfl⟩⟩
      refine (post_commit ..).mpr
        (Or.inr ⟨seen, locked, session, hp hb₃, Or.inr ⟨hredeem, ?_, ?_⟩⟩)
      · simp [exchangedResult, hissue]
      · simp [exchangedRows, hissue]
    · refine (post_checked ..).mpr ⟨fun _ hb₃ => ?_, fun _ _ => Or.inl ⟨_, rfl, rfl⟩⟩
      refine (post_commit ..).mpr
        (Or.inr ⟨seen, locked, session, hp hb₃, Or.inr ⟨hredeem, ?_, ?_⟩⟩)
      · simp [exchangedResult, hissue]
      · simp [exchangedRows, hissue]

/-- **A consumed code presented once more revokes its family**, whatever has expired. -/
theorem exchange_replay {a : ExchangeArgs} {seen code : AuthorizationCodeRow}
    {session : SessionRow} (h : CodePresented P t a db seen code session)
    (hconsumed : code.consumedAt.isSome = true) :
    (exchangeBound P t a).tx.run db = (.error .invalidGrant, replayedRows code (t.now 0) db) := by
  have hb : checkBinding a.registry (t.instant a.lease) a.clientId code.cimdBinding = .ok () ∧
      checkBinding a.registry (t.instant (a.lease + 2)) a.clientId code.cimdBinding = .ok () ∧
      checkBinding a.registry (t.instant (a.lease + 3)) a.clientId code.cimdBinding = .ok () := by
    simpa using h.binding
  have hpost : (exchangeBound P t a).tx.Post db ⟨db, []⟩ fun r d =>
      (r, d) = (.error .invalidGrant, replayedRows code (t.now 0) db) := by
    refine (post_selectOr_some (a := seen.toCodeRow) (by simp [h.found])).mpr ?_
    refine (post_ensure_pos ⟨h.matching.client, h.matching.redirect, h.matching.resource,
      h.matching.verifier⟩).mpr ?_
    refine (post_lockOr_some (by exact h.lockedSession)).mpr ?_
    refine (post_lockOr_some h.locked).mpr ((post_lockOr_some h.locked).mpr ?_)
    refine (post_ensure_pos ⟨h.sameSession, h.stillMatching.client, h.stillMatching.redirect,
      h.stillMatching.resource, h.stillMatching.verifier⟩).mpr ?_
    refine (post_checked_ok hb.1).mpr ((post_checked_ok h.policy).mpr ?_)
    refine (post_checked_ok hb.2.1).mpr ?_
    refine post_ite.mpr ⟨fun _ => (post_update ..).mpr ?_, fun hno => absurd hconsumed hno⟩
    exact (post_checked_ok hb.2.2).mpr rfl
  exact hpost

/-- What a request asks of `exchange_code_bound`. -/
def Request.Exchanges (P : Platform) (c : Request) (db : Db) (a : ExchangeArgs) : Prop :=
  match c.call with
  | .exchangeCode raw clientId redirectUri resource verifier =>
      a = ⟨0, raw, clientId, redirectUri, resource, verifier, none⟩
  | .exchangeCodeRequest raw clientId redirectUri resource verifier scopes registry =>
      ∃ stored : AuthorizationCodeRow, ((db.rows .authorizationCodes).find? fun c =>
          c.codeHash = secretHash P raw && c.clientId = clientId &&
            c.redirectUri = redirectUri) = some stored ∧
        (∀ r ∈ resource, r = stored.resource) ∧ (∀ s ∈ scopes, sameScopes s stored.scopes) ∧
        validateCode P (some registry) (c.tape.instant 0) clientId redirectUri
          stored.codeChallenge stored.scopes stored.resource = .ok () ∧
        a = ⟨1, raw, clientId, redirectUri, stored.resource, verifier, some registry⟩
  | _ => False

/-- The credential an exchange presents. -/
def Call.exchangeOf : Call → Option String
  | .exchangeCode raw .. | .exchangeCodeRequest raw .. => some raw
  | _ => none

/-- **How a call that exchanges a code ends.** -/
theorem exchange_run {c : Request} {raw : String} {r : Reply} (hc : c.call.exchangeOf = some raw)
    (h : (program P c).run db = (r, db')) :
    (∃ e, r = .exchanged (.error e) ∧ db' = db) ∨
      ∃ a x, c.Exchanges P db a ∧ a.raw = raw ∧ r = .exchanged x ∧
        (exchangeBound P c.tape a).tx.run db = (x, db') := by
  obtain ⟨call, t⟩ := c
  cases call with
  | exchangeCode raw clientId redirectUri resource verifier =>
      cases hc
      obtain ⟨x, hx, rfl⟩ := run_of_map h
      exact Or.inr ⟨_, x, rfl, rfl, rfl, hx⟩
  | exchangeCodeRequest raw clientId redirectUri resource verifier scopes registry =>
      cases hc
      obtain ⟨x, hx, rfl⟩ := run_of_map h
      refine Tx.run_of_post hx ((post_selectOr ..).mpr ⟨fun row hrow => ?_,
        fun _ => Or.inl ⟨_, rfl, rfl⟩⟩)
      obtain ⟨stored, hstored, rfl⟩ := Option.map_eq_some_iff.mp hrow
      refine (post_ensure ..).mpr ⟨fun hsame => ?_, fun _ => Or.inl ⟨_, rfl, rfl⟩⟩
      refine (post_checked ..).mpr ⟨fun _ hvalid => ?_, fun _ _ => Or.inl ⟨_, rfl, rfl⟩⟩
      exact Or.inr ⟨_, _, ⟨stored, hstored, hsame.1, hsame.2, hvalid, rfl⟩, rfl, rfl, rfl⟩
  | _ => cases hc

theorem exchanges_run {c : Request} {a : ExchangeArgs} (h : c.Exchanges P db a) :
    (program P c).run db = (.exchanged ((exchangeBound P c.tape a).tx.run db).1,
      ((exchangeBound P c.tape a).tx.run db).2) := by
  obtain ⟨call, t⟩ := c
  cases call with
  | exchangeCode raw clientId redirectUri resource verifier =>
      obtain rfl := h
      exact run_map _ _ db
  | exchangeCodeRequest raw clientId redirectUri resource verifier scopes registry =>
      obtain ⟨stored, hstored, hresource, hscopes, hvalid, rfl⟩ := h
      refine (run_map _ _ db).trans ?_
      generalize hout : (exchangeBound P t ⟨1, raw, clientId, redirectUri, stored.resource,
        verifier, some registry⟩).tx.run db = out
      have hpost : (exchangeCodeRequest P t raw clientId redirectUri resource verifier scopes
          registry).tx.Post db ⟨db, []⟩ fun r d => (r, d) = out := by
        refine (post_selectOr_some (a := stored.toCodeRow) (by simp [hstored])).mpr ?_
        exact (post_ensure_pos ⟨hresource, hscopes⟩).mpr ((post_checked_ok hvalid).mpr hout)
      exact congrArg (fun out : Except CredentialError ExchangeResult × Db =>
        (Reply.exchanged out.1, out.2)) hpost
  | _ => exact h.elim

/-- **A consumed code is presented** with what it was issued for, under a policy that allows
    it. Nothing is asked of its expiry or of its session. -/
def PresentsUsedCode (P : Platform) (c : Request) (db : Db) (code : AuthorizationCodeRow) :
    Prop :=
  ∃ args seen session, c.Exchanges P db args ∧
    CodePresented P c.tape args db seen code session ∧ code.consumedAt.isSome = true

theorem presentsUsedCode_run {c : Request} {code : AuthorizationCodeRow}
    (h : PresentsUsedCode P c db code) : (program P c).run db =
      (.exchanged (.error .invalidGrant), replayedRows code (c.tape.now 0) db) := by
  obtain ⟨args, seen, session, hargs, hp, hused⟩ := h
  rw [exchanges_run hargs, exchange_replay hp hused]

/-! ## 3. Rotation -/

/-- The arguments of `rotate_refresh_bound`. -/
structure RotateArgs where
  raw : String
  clientId : String
  resource : String
  registry : Option ClientRegistry

def rotateBound (P : Platform) (t : Tape) (a : RotateArgs) :
    Op (Except CredentialError ExchangeResult) Empty :=
  rotateRefreshBound P t a.raw a.clientId a.resource a.registry

/-- **A token was presented by the client and for the resource of its family, under a policy
    that still allows it.** `seen` was read by the hash, `member` and `family` are the locked
    rows. -/
structure TokenPresented (P : Platform) (t : Tape) (a : RotateArgs) (db : Db)
    (seen : MemberRow × FamilyRow) (member : MemberRow) (family : FamilyRow)
    (session : SessionRow) : Prop where
  found : findMember db (secretHash P a.raw) = some seen
  lockedSession : findSession db seen.2.sessionId = some session
  lockedFamily : (db.rows .refreshFamilies).find? (fun f => f.id = seen.1.familyId) = some family
  lockedMember : (db.rows .refreshTokenMembers).find? (fun m => m.id = seen.1.id) = some member
  client : family.clientId = a.clientId
  resource : family.resource = a.resource
  binding : ∀ k ∈ [0, 1, 2],
    checkBinding a.registry (t.instant k) a.clientId family.cimdBinding = .ok ()
  policy : ∀ R ∈ a.registry, R.permitsRefresh a.clientId family.scopes family.resource = true

/-- What the revocation of one family leaves. -/
def revokedRows (familyId : Uuid) (now : Time) (db : Db) : Db :=
  db.update .refreshFamilies (fun f => f.id = familyId) (.revoke now)

/-- What a rotation leaves; `successor` is the id read back for the new token. -/
def rotatedRows (P : Platform) (t : Tape) (familyId memberId successor : Uuid) (db : Db) : Db :=
  (db.insert .refreshTokenMembers (.issue (t.uuid 0) familyId (t.hash P 0) (t.now 0))).update
    .refreshTokenMembers (fun m => m.id = memberId) (.consume (t.now 0) successor)

def rotatedResult (t : Tape) (sessionId : Uuid) (family : FamilyRow) (session : SessionRow) :
    ExchangeResult :=
  { sessionId, userId := session.userId, clientId := family.clientId, scopes := family.scopes
    resource := family.resource, refreshToken := some (t.secret 0), oidcNonce := none
    upstreamAuthTime := family.upstreamAuthTime }

/-- The id a rotation reads back for the token it inserted. -/
def successorOf (P : Platform) (t : Tape) (familyId : Uuid) (db : Db) : Option Uuid :=
  (((db.insert .refreshTokenMembers (.issue (t.uuid 0) familyId (t.hash P 0) (t.now 0))).rows
    .refreshTokenMembers).find? fun m => m.tokenHash = secretHash P (t.secret 0)).map (·.id)

/-- A token that may be rotated at `now`. -/
structure MemberRow.Rotatable (member : MemberRow) (family : FamilyRow) (session : SessionRow)
    (now : Time) : Prop where
  unconsumed : member.consumedAt = none
  unrevoked : family.revokedAt = none
  unexpired : now < family.expiresAt
  active : session.active now = true

/-- **How a rotation ends.** -/
theorem rotateBound_run {a : RotateArgs} {r : Except CredentialError ExchangeResult}
    (h : (rotateBound P t a).tx.run db = (r, db')) :
    (∃ e, r = .error e ∧ db' = db) ∨
      ∃ seen member family session, TokenPresented P t a db seen member family session ∧
        ((member.consumedAt.isSome = true ∧ r = .error .invalidGrant ∧
            db' = revokedRows seen.1.familyId (t.now 0) db) ∨
          (member.Rotatable family session (t.now 0) ∧ ∃ successor,
            successorOf P t seen.1.familyId db = some successor ∧
            r = .ok (rotatedResult t seen.2.sessionId family session) ∧
            db' = rotatedRows P t seen.1.familyId seen.1.id successor db)) := by
  refine Tx.run_of_post h ((post_selectOr ..).mpr ⟨fun lookup hlookup => ?_,
    fun _ => Or.inl ⟨_, rfl, rfl⟩⟩)
  obtain ⟨seen, hfound, rfl⟩ := Option.map_eq_some_iff.mp hlookup
  refine (post_lockOr ..).mpr ⟨fun session hsession => ?_, fun _ => Or.inl ⟨_, rfl, rfl⟩⟩
  refine (post_lockOr ..).mpr ⟨fun family hfamily => ?_, fun _ => Or.inl ⟨_, rfl, rfl⟩⟩
  refine (post_lockOr ..).mpr ⟨fun member hmember => ?_, fun _ => Or.inl ⟨_, rfl, rfl⟩⟩
  refine (post_ensure ..).mpr ⟨fun hsame => ?_, fun _ => Or.inl ⟨_, rfl, rfl⟩⟩
  refine (post_checked ..).mpr ⟨fun _ hb₀ => ?_, fun _ _ => Or.inl ⟨_, rfl, rfl⟩⟩
  refine (post_ensure ..).mpr ⟨fun hpolicy => ?_, fun _ => Or.inl ⟨_, rfl, rfl⟩⟩
  refine (post_checked ..).mpr ⟨fun _ hb₁ => ?_, fun _ _ => Or.inl ⟨_, rfl, rfl⟩⟩
  have hp : checkBinding a.registry (t.instant 2) a.clientId family.cimdBinding = .ok () →
      TokenPresented P t a db seen member family session := fun hb₂ =>
    { found := hfound
      lockedSession := hsession
      lockedFamily := hfamily
      lockedMember := hmember
      client := hsame.1
      resource := hsame.2
      binding := by simp [hb₀, hb₁, hb₂]
      policy := hpolicy }
  refine post_ite.mpr ⟨fun hconsumed => ?_, fun hopen => ?_⟩
  · refine (post_update ..).mpr ?_
    refine (post_checked ..).mpr ⟨fun _ hb₂ => ?_, fun _ _ => Or.inl ⟨_, rfl, rfl⟩⟩
    exact Or.inr ⟨seen, member, family, session, hp hb₂, Or.inl ⟨hconsumed, rfl, rfl⟩⟩
  · refine (post_ensure ..).mpr ⟨fun hlive => ?_, fun _ => Or.inl ⟨_, rfl, rfl⟩⟩
    have hrotate : member.Rotatable family session (t.now 0) := by
      simp only [not_or, not_le, Bool.not_eq_true, Option.isSome_eq_false_iff,
        Option.isNone_iff_eq_none] at hlive hopen
      refine ⟨hopen, hlive.1, hlive.2.2.1, ?_⟩
      simp [SessionRow.active, hlive.2.1, hlive.2.2.2]
    refine (post_insert ..).mpr ((post_selectOr ..).mpr ⟨fun successor hs => ?_,
      fun _ => Or.inl ⟨_, rfl, rfl⟩⟩)
    refine (post_update ..).mpr ?_
    refine (post_checked ..).mpr ⟨fun _ hb₂ => ?_, fun _ _ => Or.inl ⟨_, rfl, rfl⟩⟩
    exact Or.inr ⟨seen, member, family, session, hp hb₂,
      Or.inr ⟨hrotate, successor, hs, rfl, rfl⟩⟩

/-- **A consumed token presented once more revokes its family.** -/
theorem rotate_replay {a : RotateArgs} {seen : MemberRow × FamilyRow} {member : MemberRow}
    {family : FamilyRow} {session : SessionRow}
    (h : TokenPresented P t a db seen member family session)
    (hconsumed : member.consumedAt.isSome = true) :
    (rotateBound P t a).tx.run db =
      (.error .invalidGrant, revokedRows seen.1.familyId (t.now 0) db) := by
  have hb : checkBinding a.registry (t.instant 0) a.clientId family.cimdBinding = .ok () ∧
      checkBinding a.registry (t.instant 1) a.clientId family.cimdBinding = .ok () ∧
      checkBinding a.registry (t.instant 2) a.clientId family.cimdBinding = .ok () := by
    simpa using h.binding
  have hpost : (rotateBound P t a).tx.Post db ⟨db, []⟩ fun r d =>
      (r, d) = (.error .invalidGrant, revokedRows seen.1.familyId (t.now 0) db) := by
    refine (post_selectOr_some (a := TokenLookup.mk seen.1.id seen.1.familyId
      seen.2.sessionId) (by simp [h.found])).mpr ?_
    refine (post_lockOr_some (by exact h.lockedSession)).mpr ?_
    refine (post_lockOr_some h.lockedFamily).mpr ?_
    refine (post_lockOr_some h.lockedMember).mpr ?_
    refine (post_ensure_pos ⟨h.client, h.resource⟩).mpr ((post_checked_ok hb.1).mpr ?_)
    refine (post_ensure_pos h.policy).mpr ((post_checked_ok hb.2.1).mpr ?_)
    refine post_ite.mpr ⟨fun _ => (post_update ..).mpr ?_, fun hno => absurd hconsumed hno⟩
    exact (post_checked_ok hb.2.2).mpr rfl
  exact hpost

/-- What a request asks of `rotate_refresh_bound`. -/
def Request.Rotates (P : Platform) (c : Request) (db : Db) (a : RotateArgs) : Prop :=
  match c.call with
  | .rotateRefresh raw clientId resource => a = ⟨raw, clientId, resource, none⟩
  | .rotateRefreshRequest raw clientId resource scopes registry =>
      ∃ stored, findMember db (secretHash P raw) = some stored ∧ stored.2.clientId = clientId ∧
        (∀ r ∈ resource, r = stored.2.resource) ∧
        (∀ s ∈ scopes, sameScopes s stored.2.scopes) ∧
        registry.permitsRefresh clientId stored.2.scopes stored.2.resource = true ∧
        a = ⟨raw, clientId, stored.2.resource, some registry⟩
  | _ => False

/-- The credential a rotation presents. -/
def Call.rotationOf : Call → Option String
  | .rotateRefresh raw .. | .rotateRefreshRequest raw .. => some raw
  | _ => none

/-- **How a call that rotates a token ends.** -/
theorem rotate_run {c : Request} {raw : String} {r : Reply} (hc : c.call.rotationOf = some raw)
    (h : (program P c).run db = (r, db')) :
    (∃ e, r = .exchanged (.error e) ∧ db' = db) ∨
      ∃ a x, c.Rotates P db a ∧ a.raw = raw ∧ r = .exchanged x ∧
        (rotateBound P c.tape a).tx.run db = (x, db') := by
  obtain ⟨call, t⟩ := c
  cases call with
  | rotateRefresh raw clientId resource =>
      cases hc
      obtain ⟨x, hx, rfl⟩ := run_of_map h
      exact Or.inr ⟨_, x, rfl, rfl, rfl, hx⟩
  | rotateRefreshRequest raw clientId resource scopes registry =>
      cases hc
      obtain ⟨x, hx, rfl⟩ := run_of_map h
      refine Tx.run_of_post hx ((post_selectOr ..).mpr ⟨fun pair hpair => ?_,
        fun _ => Or.inl ⟨_, rfl, rfl⟩⟩)
      obtain ⟨stored, hstored, hclient⟩ := Option.bind_eq_some_iff.mp hpair
      split at hclient
      swap
      · cases hclient
      cases hclient
      rename_i hclient
      refine (post_ensure ..).mpr ⟨fun hsame => ?_, fun _ => Or.inl ⟨_, rfl, rfl⟩⟩
      exact Or.inr ⟨_, _, ⟨stored, hstored, hclient, hsame.1, hsame.2.1, hsame.2.2, rfl⟩, rfl,
        rfl, rfl⟩
  | _ => cases hc

theorem rotates_run {c : Request} {a : RotateArgs} (h : c.Rotates P db a) :
    (program P c).run db = (.exchanged ((rotateBound P c.tape a).tx.run db).1,
      ((rotateBound P c.tape a).tx.run db).2) := by
  obtain ⟨call, t⟩ := c
  cases call with
  | rotateRefresh raw clientId resource =>
      obtain rfl := h
      exact run_map _ _ db
  | rotateRefreshRequest raw clientId resource scopes registry =>
      obtain ⟨stored, hstored, hclient, hresource, hscopes, hpermits, rfl⟩ := h
      refine (run_map _ _ db).trans ?_
      generalize hout : (rotateBound P t ⟨raw, clientId, stored.2.resource,
        some registry⟩).tx.run db = out
      have hpost : (rotateRefreshRequest P t raw clientId resource scopes registry).tx.Post db
          ⟨db, []⟩ fun r d => (r, d) = out := by
        refine (post_selectOr_some (a := (stored.2.scopes, stored.2.resource))
          (by simp [hstored, hclient])).mpr ?_
        exact (post_ensure_pos ⟨hresource, hscopes, hpermits⟩).mpr hout
      exact congrArg (fun out : Except CredentialError ExchangeResult × Db =>
        (Reply.exchanged out.1, out.2)) hpost
  | _ => exact h.elim

/-- **A used token is presented** by the client and for the resource of its family, under a
    policy that allows it. -/
def PresentsUsedToken (P : Platform) (c : Request) (db : Db) (family : FamilyRow) : Prop :=
  ∃ args seen member session, c.Rotates P db args ∧
    TokenPresented P c.tape args db seen member family session ∧
    member.consumedAt.isSome = true

theorem TokenPresented.family_id {a : RotateArgs} {seen : MemberRow × FamilyRow}
    {member : MemberRow} {family : FamilyRow} {session : SessionRow}
    (h : TokenPresented P t a db seen member family session) : family.id = seen.1.familyId :=
  of_decide_eq_true (List.find?_some h.lockedFamily :)

theorem presentsUsedToken_run {c : Request} {family : FamilyRow}
    (h : PresentsUsedToken P c db family) : (program P c).run db =
      (.exchanged (.error .invalidGrant), revokedRows family.id (c.tape.now 0) db) := by
  obtain ⟨args, seen, member, session, hargs, hp, hused⟩ := h
  rw [rotates_run hargs, rotate_replay hp hused, hp.family_id]

/-! ## 4. Revocation -/

/-- **How a revocation ends**: an unknown token, or one of another client, is not an error. -/
theorem revokeRefresh_run {raw clientId : String} {r : Except CredentialError Unit}
    (h : (revokeRefresh P t raw clientId).tx.run db = (r, db')) :
    (r = .ok () ∧ db' = db ∧ ∀ seen, findMember db (secretHash P raw) = some seen →
        seen.2.clientId ≠ clientId) ∨
      ∃ seen, findMember db (secretHash P raw) = some seen ∧ seen.2.clientId = clientId ∧
        ((r = .error .database ∧ db' = db) ∨
          (r = .ok () ∧ db' = revokedRows seen.1.familyId (t.now 0) db)) := by
  refine Tx.run_of_post h ((post_select ..).mpr ?_)
  beta_reduce
  generalize hfound : findMember db (secretHash P raw) = found
  cases found with
  | none => exact Or.inl ⟨rfl, rfl, fun _ e => by cases e⟩
  | some seen =>
      by_cases hclient : seen.2.clientId = clientId
      · simp only [Option.map_some, Option.filter, hclient, decide_true, if_true]
        refine (post_lockOr ..).mpr ⟨fun _ _ => ?_,
          fun _ => Or.inr ⟨seen, rfl, hclient, Or.inl ⟨rfl, rfl⟩⟩⟩
        refine (post_lockOr ..).mpr ⟨fun _ _ => ?_,
          fun _ => Or.inr ⟨seen, rfl, hclient, Or.inl ⟨rfl, rfl⟩⟩⟩
        exact Or.inr ⟨seen, rfl, hclient, Or.inr ⟨rfl, rfl⟩⟩
      · simp only [Option.map_some, Option.filter, hclient, decide_false]
        refine Or.inl ⟨rfl, rfl, fun x e => ?_⟩
        cases e
        exact hclient

/-- What a logout leaves of a session and its families. -/
def loggedOutRows (session : Uuid) (now : Time) (set : FamilyRow → FamilyRow) (db : Db) : Db :=
  (db.update .providerSessions (fun s => s.id = session) (.revoke now)).update
    .refreshFamilies (fun f => f.sessionId = session) set

/-- **How a logout ends.** -/
theorem logout_run {session : ProviderSession} {r : Except CredentialError Unit}
    (h : (logout t session).tx.run db = (r, db')) :
    (r = .error .database ∧ db' = db) ∨
      ∃ s, findSession db session.id = some s ∧ r = .ok () ∧
        db' = loggedOutRows session.id (t.now 0) (fun f => f.revoke (t.rowNow f.id)) db := by
  refine Tx.run_of_post h ((post_lockOr ..).mpr ⟨fun s hs => ?_, fun _ => Or.inl ⟨rfl, rfl⟩⟩)
  refine (post_update ..).mpr ((post_updateEach ?_ ?_ ?_ t.scan_perm).mpr ?_)
  · exact fun _ => rfl
  · exact fun _ => rfl
  · exact fun _ => rfl
  · exact Or.inr ⟨s, hs, rfl, rfl⟩

/-! ## 5. Logout challenges -/

/-- **How the start of a logout ends.** -/
theorem insertLogout_run {session : ProviderSession} {clientId redirect : String}
    {state : Option String} {r : Except CredentialError LogoutChallenge}
    (h : (insertLogout P t session clientId redirect state).tx.run db = (r, db')) :
    (∃ e, r = .error e ∧ db' = db) ∨
      ∃ s, findSession db session.id = some s ∧ s.active (t.now 0) = true ∧
        r = .ok ⟨t.uuid 0, t.secret 0, redirect⟩ ∧
        db' = db.insert .logoutChallenges (.begin (t.uuid 0) (t.hash P 0) session.id clientId
          redirect state (t.now 1)) := by
  refine Tx.run_of_post h ((post_lockOr ..).mpr ⟨fun s hs => ?_,
    fun _ => Or.inl ⟨_, rfl, rfl⟩⟩)
  refine (post_ensure ..).mpr ⟨fun hactive => ?_, fun _ => Or.inl ⟨_, rfl, rfl⟩⟩
  exact Or.inr ⟨s, hs, hactive, rfl, rfl⟩

theorem beginLogout_run {session : ProviderSession} {clientId redirect : String}
    {state : Option String} {registry : ClientRegistry}
    {r : Except CredentialError LogoutChallenge}
    (h : (beginLogout P t session clientId redirect state registry).tx.run db = (r, db')) :
    ((∃ e, r = .error e) ∧ db' = db) ∨
      ∃ s, findSession db session.id = some s ∧ s.active (t.now 0) = true ∧
        registry.validPostLogoutRedirect clientId redirect = true ∧
        r = .ok ⟨t.uuid 0, t.secret 0, redirect⟩ ∧
        db' = db.insert .logoutChallenges
          (.begin (t.uuid 0) (t.hash P 0) session.id clientId redirect state (t.now 1)) := by
  have hbegin : (beginLogout P t session clientId redirect state registry).tx =
      ensure (registry.validPostLogoutRedirect clientId redirect = true)
        (.error .invalidGrant) fun _ =>
          (insertLogout P t session clientId redirect state).tx := rfl
  rw [hbegin] at h
  refine Tx.run_of_post h ((post_ensure ..).mpr ⟨fun hvalid => ?_,
    fun _ => Or.inl ⟨⟨_, rfl⟩, rfl⟩⟩)
  rcases insertLogout_run (P := P) rfl with ⟨e, hr, hd⟩ | ⟨s, hs, hactive, hr, hd⟩
  · exact Or.inl ⟨⟨e, hr⟩, hd⟩
  · exact Or.inr ⟨s, hs, hactive, hvalid, hr, hd⟩

/-- **How the answer to a challenge ends.** -/
theorem finishInner_run {session : ProviderSession} {challenge : LogoutChallenge}
    {registry : ClientRegistry} {hint : Option IdClaims}
    {r : Except CredentialError (Option LogoutOutcome)}
    (h : (finishInner P t session challenge registry hint).tx.run db = (r, db')) :
    ((∃ e, r = .error e) ∧ db' = db) ∨
      ∃ s, findSession db session.id = some s ∧ s.active (t.now 0) = true ∧
        ((r = .ok none ∧ db' = db) ∨ ∃ outcome, r = .ok (some outcome) ∧
          db' = loggedOutRows session.id (t.now 0) (.revoke (t.now 0))
            (db.update .logoutChallenges (fun r => r.id = challenge.id) (.consume (t.now 0)))) := by
  refine Tx.run_of_post h ((post_lockOr ..).mpr ⟨fun s hs => ?_,
    fun _ => Or.inl ⟨⟨_, rfl⟩, rfl⟩⟩)
  refine (post_lockOr ..).mpr ⟨fun row _ => ?_, fun _ => Or.inl ⟨⟨_, rfl⟩, rfl⟩⟩
  refine (post_ensure ..).mpr ⟨fun hactive => ?_, fun _ => Or.inl ⟨⟨_, rfl⟩, rfl⟩⟩
  have hactive : s.active (t.now 0) = true := (Bool.and_eq_true _ _ ▸ hactive).1
  refine (post_ensure ..).mpr ⟨fun _ => ?_, fun _ => Or.inl ⟨⟨_, rfl⟩, rfl⟩⟩
  refine (post_ensure ..).mpr ⟨fun _ => ?_, fun _ => Or.inr ⟨s, hs, hactive, Or.inl ⟨rfl, rfl⟩⟩⟩
  refine (post_update ..).mpr ((post_update ..).mpr
    ((post_updateEach ?_ ?_ ?_ t.scan_perm).mpr ?_))
  · exact fun _ => rfl
  · exact fun _ => rfl
  · exact fun _ => rfl
  · exact Or.inr ⟨s, hs, hactive, Or.inr ⟨_, rfl, rfl⟩⟩

end Eri
