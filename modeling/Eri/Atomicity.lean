/-
  File:      Eri/Atomicity.lean
  Subject:   What calls that fail leave, on any rows.

  * **`credential_errors`** -- an exchange, a rotation or an issue that fails changes nothing,
    except that a used credential presented as it was issued for revokes what came of it;
  * **`browser_errors`** -- a browser call that fails changes nothing, except that a callback
    or a login that comes too late marks its transaction; a login happens with its user, its
    profile and its session, or not at all.

  Nothing is asked of the rows here but the `PRIMARY KEY` and `UNIQUE` constraints, and these
  only where a statement picks its rows by a hash.
-/
import Eri.Revocation

namespace Eri

open Sql

variable {P : Platform} {c : Request} {db db' : Db}

/-! ## 1. Credentials -/

/-- The calls that hand out a code or a token. -/
def Call.issues : Call → Bool
  | .issueAuthorizationCode .. | .exchangeCode .. | .exchangeCodeRequest .. | .rotateRefresh ..
  | .rotateRefreshRequest .. => true
  | _ => false

/-- The client a call names. -/
def Call.clientOf : Call → Option String
  | .exchangeCode _ clientId .. | .exchangeCodeRequest _ clientId .. | .rotateRefresh _ clientId _
  | .rotateRefreshRequest _ clientId .. => some clientId
  | _ => none

theorem exchange_error {r : Reply} {raw : String} (h : (program P c).run db = (r, db'))
    (hc : c.call.exchangeOf = some raw) (hr : r.isOk = false) :
    db' = db ∨ ∃ code, PresentsUsedCode P c db code ∧
      db' = replayedRows code (c.tape.now 0) db := by
  rcases exchange_run hc h with ⟨e, rfl, hsame⟩ | ⟨a, x, hargs, rfl, rfl, hrun⟩
  · exact Or.inl hsame
  rcases exchangeBound_run hrun with ⟨e, rfl, hsame⟩ | ⟨seen, code, session, hp, hend⟩
  · exact Or.inl hsame
  rcases hend with ⟨hused, rfl, hrows⟩ | ⟨_, rfl, _⟩
  · exact Or.inr ⟨code, ⟨a, seen, session, hargs, hp, hused⟩, hrows⟩
  · cases hr

theorem rotate_error {r : Reply} {raw : String} (h : (program P c).run db = (r, db'))
    (hc : c.call.rotationOf = some raw) (hr : r.isOk = false) :
    db' = db ∨ ∃ family, PresentsUsedToken P c db family ∧
      db' = revokedRows family.id (c.tape.now 0) db := by
  rcases rotate_run hc h with ⟨e, rfl, hsame⟩ | ⟨a, x, hargs, rfl, rfl, hrun⟩
  · exact Or.inl hsame
  rcases rotateBound_run hrun with ⟨e, rfl, hsame⟩ | ⟨seen, member, family, session, hp, hend⟩
  · exact Or.inl hsame
  rcases hend with ⟨hused, rfl, hrows⟩ | ⟨_, _, _, rfl, _⟩
  · refine Or.inr ⟨family, ⟨a, seen, member, session, hargs, hp, hused⟩, ?_⟩
    rw [hp.family_id]
    exact hrows
  · cases hr

theorem issue_error {r : Reply} {session : ProviderSession} {lifetime : Duration}
    {grant : ValidatedAuthorizationGrant} (h : (program P c).run db = (r, db'))
    (hc : c.call = .issueAuthorizationCode session grant lifetime) (hr : r.isOk = false) :
    db' = db := by
  obtain ⟨call, t⟩ := c
  subst hc
  obtain ⟨x, hx, rfl⟩ := run_of_map h
  rcases issueAuthorizationCode_run hx with ⟨e, rfl, hsame⟩ | ⟨_, _, _, _, _, rfl, _⟩
  · exact hsame
  · cases hr

theorem Request.Exchanges.client {a : ExchangeArgs} (h : c.Exchanges P db a) :
    c.call.clientOf = some a.clientId := by
  obtain ⟨call, t⟩ := c
  cases call with
  | exchangeCode =>
      obtain rfl := h
      rfl
  | exchangeCodeRequest =>
      obtain ⟨_, _, _, _, _, rfl⟩ := h
      rfl
  | _ => exact h.elim

theorem Request.Rotates.client {a : RotateArgs} (h : c.Rotates P db a) :
    c.call.clientOf = some a.clientId := by
  obtain ⟨call, t⟩ := c
  cases call with
  | rotateRefresh =>
      obtain rfl := h
      rfl
  | rotateRefreshRequest =>
      obtain ⟨_, _, _, _, _, _, rfl⟩ := h
      rfl
  | _ => exact h.elim

/-- The family a replayed code revokes is of the client and the session of the code. -/
theorem used_code_family {code : AuthorizationCodeRow} (hI : (layout P).Integrity db)
    (h : PresentsUsedCode P c db code) {f : FamilyRow} (hf : f ∈ db.rows .refreshFamilies)
    (hsource : f.sourceCodeId = code.id) :
    c.call.clientOf = some f.clientId ∧ f.sessionId = code.sessionId := by
  obtain ⟨args, seen, session, hargs, hp, _⟩ := h
  obtain ⟨x, hx, hdesc, _⟩ := (hI.ok .refreshFamilies f hf).code
  have e : x = code := same_key hI hx (find_mem hp.locked) (hdesc.source.symm.trans hsource)
  subst e
  rw [hargs.client, hdesc.client, hp.stillMatching.client]
  exact ⟨rfl, hdesc.session⟩

/-- **Failed credential calls.** Whatever is stored, an exchange, a rotation or an issue that
    fails changes nothing, unless it presents a used credential as it was issued for; then it
    fails, and revokes the family of the code, or of the token, of that client and session.
    A revocation of an unknown token, or by another client, succeeds and changes nothing. -/
theorem credential_errors (P : Platform) (c : Request) (db : Db) :
    (c.call.issues = true → ((program P c).run db).1.isOk = false →
      ((program P c).run db).2 = db ∨
      (∃ code, PresentsUsedCode P c db code ∧
        ((program P c).run db).2 = replayedRows code (c.tape.now 0) db) ∨
      ∃ family, PresentsUsedToken P c db family ∧
        ((program P c).run db).2 = revokedRows family.id (c.tape.now 0) db) ∧
    (∀ code, PresentsUsedCode P c db code → (program P c).run db =
      (.exchanged (.error .invalidGrant), replayedRows code (c.tape.now 0) db)) ∧
    (∀ family, PresentsUsedToken P c db family → (program P c).run db =
      (.exchanged (.error .invalidGrant), revokedRows family.id (c.tape.now 0) db)) ∧
    ((layout P).Integrity db →
      (∀ code, PresentsUsedCode P c db code → ∀ f ∈ db.rows .refreshFamilies,
        FamilyRow.sourceCodeId f = code.id → c.call.clientOf = some (FamilyRow.clientId f) ∧
          FamilyRow.sessionId f = code.sessionId) ∧
      ∀ family, PresentsUsedToken P c db family → c.call.clientOf = some family.clientId ∧
        ∀ f ∈ db.rows .refreshFamilies, FamilyRow.id f = family.id → f = family) ∧
    ∀ raw clientId, c.call = .revokeRefresh raw clientId →
      (∀ seen ∈ findMember db (secretHash P raw), seen.2.clientId ≠ clientId) →
      (program P c).run db = (.revoked (.ok ()), db) := by
  refine ⟨fun hc hr => ?_, fun code => presentsUsedCode_run, fun family => presentsUsedToken_run,
    fun hI => ⟨fun code h f hf hsource => used_code_family hI h hf hsource, fun family h => ?_⟩,
    fun raw clientId hc hno => ?_⟩
  · generalize hrun : (program P c).run db = out at hr ⊢
    obtain ⟨r, db'⟩ := out
    cases hcall : c.call with
    | issueAuthorizationCode => exact Or.inl (issue_error hrun hcall hr)
    | exchangeCode raw | exchangeCodeRequest raw =>
        have hof : c.call.exchangeOf = some raw := by rw [hcall]; rfl
        exact (exchange_error hrun hof hr).imp_right Or.inl
    | rotateRefresh raw | rotateRefreshRequest raw =>
        have hof : c.call.rotationOf = some raw := by rw [hcall]; rfl
        exact (rotate_error hrun hof hr).imp_right Or.inr
    | _ =>
        rw [hcall] at hc
        cases hc
  · obtain ⟨args, seen, member, session, hargs, hp, _⟩ := h
    refine ⟨?_, fun f hf e => same_key hI hf (find_mem hp.lockedFamily) e⟩
    rw [hargs.client, hp.client]
  · obtain ⟨call, t⟩ := c
    obtain rfl := hc
    refine (run_map _ _ db).trans ?_
    generalize hrun : (revokeRefresh P t raw clientId).tx.run db = out
    obtain ⟨r, db'⟩ := out
    rcases revokeRefresh_run hrun with ⟨rfl, rfl, _⟩ | ⟨seen, hseen, hclient, _⟩
    · rfl
    · exact absurd hclient (hno seen hseen)

/-- Another client presents the tokens of a grant. -/
theorem credential_errors_other_client :
    let db := (Sample.machine Sample.grantSteps).db
    let rotate : Request := ⟨.rotateRefresh "token" "other" Sample.grant.resource,
      Sample.tape 5 [.replay]⟩
    (program Sample.platform ⟨.revokeRefresh "token" "other", Sample.tape 5 [.replay]⟩).run db =
      (.revoked (.ok ()), db) ∧
    (((program Sample.platform rotate).run db).2 = db ∨
      (∃ code, PresentsUsedCode Sample.platform rotate db code ∧
        ((program Sample.platform rotate).run db).2 = replayedRows code (5 * second) db) ∨
      ∃ family, PresentsUsedToken Sample.platform rotate db family ∧
        ((program Sample.platform rotate).run db).2 = revokedRows family.id (5 * second) db) := by
  intro db rotate
  have hother : (∀ seen ∈ findMember db (secretHash Sample.platform "token"),
        seen.2.clientId ≠ "other") ∧
      ((program Sample.platform rotate).run db).1.isOk = false := by
    decide +kernel
  exact ⟨(credential_errors Sample.platform _ _).2.2.2.2 "token" "other" rfl hother.1,
    (credential_errors Sample.platform _ _).1 rfl hother.2⟩

/-! ## 2. Browser transactions -/

/-- A column that may be null and is `UNIQUE`: nulls are equal to nothing. -/
def Differ {α : Type} (a b : Option α) : Prop := ∀ x, a = some x → b ≠ some x

/-- Two rows that the constraints of their table allow side by side. -/
def Row.Apart : {t : Table} → Row t → Row t → Prop
  | .users, r, r' => User.id r ≠ User.id r'
  | .externalIdentities, r, r' =>
      (ExternalIdentityRow.issuer r, ExternalIdentityRow.subject r) ≠
        (ExternalIdentityRow.issuer r', ExternalIdentityRow.subject r') ∧
      (ExternalIdentityRow.userId r, ExternalIdentityRow.issuer r) ≠
        (ExternalIdentityRow.userId r', ExternalIdentityRow.issuer r')
  | .userProfiles, r, r' => ProfileRow.userId r ≠ ProfileRow.userId r'
  | .providerSessions, r, r' =>
      SessionRow.id r ≠ SessionRow.id r' ∧ SessionRow.tokenHash r ≠ SessionRow.tokenHash r'
  | .authorizationCodes, r, r' =>
      (AuthorizationCodeRow.toCodeRow r).id ≠ (AuthorizationCodeRow.toCodeRow r').id ∧
      AuthorizationCodeRow.codeHash r ≠ AuthorizationCodeRow.codeHash r'
  | .refreshFamilies, r, r' =>
      FamilyRow.id r ≠ FamilyRow.id r' ∧ FamilyRow.sourceCodeId r ≠ FamilyRow.sourceCodeId r'
  | .refreshTokenMembers, r, r' =>
      MemberRow.id r ≠ MemberRow.id r' ∧ MemberRow.tokenHash r ≠ MemberRow.tokenHash r'
  | .browserAuthorizations, r, r' =>
      BrowserRow.id r ≠ BrowserRow.id r' ∧
      Differ (BrowserRow.upstreamStateHash r) (BrowserRow.upstreamStateHash r') ∧
      Differ (BrowserRow.claimHash r) (BrowserRow.claimHash r')
  | .logoutChallenges, r, r' => LogoutRow.id r ≠ LogoutRow.id r'

/-- **What `PRIMARY KEY` and `UNIQUE` promise of the rows.** -/
def KeysUnique (db : Db) : Prop := ∀ t, (db.rows t).Pairwise Row.Apart

/-- The error of a browser call. -/
def Reply.browserError : Reply → Option BrowserError
  | .client (.error e) | .begun (.error e) | .started (.error e) | .denied (.error e)
  | .handle (.error e) | .authTime (.error e) | .claimed (.error e) | .failed (.error e)
  | .completed (.error e) | .approved (.error e) | .preApproved (.error e)
  | .view (.error e) => some e
  | _ => none

/-- **A callback or a login that comes too late** marks its one transaction. -/
inductive TooLate (P : Platform) (c : Request) (db : Db) : Db → Prop where
  | claim (state binding : String) (hc : c.call = .claimCallback state binding)
      (row : BrowserRow) (hrow : row ∈ db.rows .browserAuthorizations)
      (hshown : row.claimable P state binding = true) (hlate : row.expiresAt ≤ c.tape.now 0)
      (hone : ∀ r ∈ db.rows .browserAuthorizations, BrowserRow.id r = row.id → r = row) :
      TooLate P c db (db.update .browserAuthorizations (fun r => r.id = row.id) .expireStart)
  | login (claim : String) (identity : VerifiedGoogleIdentity) (lifetime : Duration)
      (registry : Option ClientRegistry)
      (hc : c.call = .completeCallback claim identity lifetime registry)
      (row : BrowserRow) (hrow : row ∈ db.rows .browserAuthorizations)
      (hshown : row.claimedBy P claim = true) (hlate : row.expiresAt ≤ c.tape.now 1)
      (hone : ∀ r ∈ db.rows .browserAuthorizations, BrowserRow.id r = row.id → r = row) :
      TooLate P c db (db.update .browserAuthorizations (fun r => r.id = row.id) .expireCallback)

/-- **A login**: its user with this very profile, one session, and the transaction that now
    waits for the consent of that session. -/
structure LoggedIn (P : Platform) (c : Request) (claim : String)
    (identity : VerifiedGoogleIdentity) (a b : Db) : Prop where
  user : ∃ user, findIdentity b googleIssuer identity.subject = some user ∧
    ProfileRow.of user identity (c.tape.now 0) ∈ b.rows .userProfiles ∧
    ∃ seconds, b.rows .providerSessions =
      a.rows .providerSessions ++ [loginSession P c.tape identity seconds user]
  transaction : ∃ row ∈ a.rows .browserAuthorizations, BrowserRow.claimedBy P claim row = true ∧
    BrowserRow.complete (c.tape.uuid 0) (c.tape.hash P 1) row ∈ b.rows .browserAuthorizations
  codes : b.rows .authorizationCodes = a.rows .authorizationCodes

/-- Rows without a name in common differ in each column that names them. -/
theorem Row.apart_of_disjoint {t : Table} {r r' : Row t}
    (h : (Row.names r).Disjoint (Row.names r')) : Row.Apart r r' := by
  have hno : ∀ n ∈ Row.names r, n ∉ Row.names r' := fun n hn hn' => h hn hn'
  cases t with
  | users => exact fun e => hno (.id r.id) (by simp [names]) (by simp [names, e])
  | externalIdentities =>
      refine ⟨fun e => ?_, fun e => ?_⟩
      · obtain ⟨hissuer, hsubject⟩ := Prod.mk.inj e
        exact hno (.subject r.issuer r.subject) (by simp [names])
          (by simp [names, hissuer, hsubject])
      · exact hno (.owner r.userId) (by simp [names]) (by simp [names, (Prod.mk.inj e).1])
  | userProfiles => exact fun e => hno (.owner r.userId) (by simp [names]) (by simp [names, e])
  | providerSessions =>
      exact ⟨fun e => hno (.id r.id) (by simp [names]) (by simp [names, e]),
        fun e => hno (.hash r.tokenHash) (by simp [names]) (by simp [names, e])⟩
  | authorizationCodes =>
      exact ⟨fun e => hno (.id r.toCodeRow.id) (by simp [names]) (by simp [names, e]),
        fun e => hno (.hash r.codeHash) (by simp [names]) (by simp [names, e])⟩
  | refreshFamilies =>
      exact ⟨fun e => hno (.id r.id) (by simp [names]) (by simp [names, e]),
        fun e => hno (.source r.sourceCodeId) (by simp [names]) (by simp [names, e])⟩
  | refreshTokenMembers =>
      exact ⟨fun e => hno (.id r.id) (by simp [names]) (by simp [names, e]),
        fun e => hno (.hash r.tokenHash) (by simp [names]) (by simp [names, e])⟩
  | browserAuthorizations =>
      exact ⟨fun e => hno (.id r.id) (by simp [names]) (by simp [names, e]),
        fun x hx hx' => hno (.hash x) (by simp [names, hx]) (by simp [names, hx']),
        fun x hx hx' => hno (.hash x) (by simp [names, hx]) (by simp [names, hx'])⟩
  | logoutChallenges => exact fun e => hno (.id r.id) (by simp [names]) (by simp [names, e])

theorem keysUnique_of_integrity (h : (layout P).Integrity db) : KeysUnique db := fun t =>
  (h.distinct t).imp Row.apart_of_disjoint

theorem KeysUnique.id (h : KeysUnique db) {row : BrowserRow}
    (hrow : row ∈ db.rows .browserAuthorizations) :
    ∀ r ∈ db.rows .browserAuthorizations, BrowserRow.id r = row.id → r = row := by
  intro r hr e
  by_contra hne
  have hids : (db.rows .browserAuthorizations).Pairwise fun r r' =>
      BrowserRow.id r ≠ BrowserRow.id r' := (h .browserAuthorizations).imp And.left
  have : Std.Symm fun r r' : Row .browserAuthorizations => BrowserRow.id r ≠ BrowserRow.id r' :=
    ⟨fun _ _ h => h.symm⟩
  exact hids.forall hr hrow hne e

/-- A claim belongs to one transaction. -/
theorem KeysUnique.claimed (h : KeysUnique db) (claim : String) :
    ((db.rows .browserAuthorizations).filter (BrowserRow.claimedBy P claim)).length ≤ 1 := by
  have hpair : ((db.rows .browserAuthorizations).filter (BrowserRow.claimedBy P claim)).Pairwise
      fun r r' => Differ (BrowserRow.claimHash r) (BrowserRow.claimHash r') :=
    ((h .browserAuthorizations).filter _).imp fun h => h.2.2
  have hhash : ∀ r ∈ (db.rows .browserAuthorizations).filter (BrowserRow.claimedBy P claim),
      BrowserRow.claimHash r = some (secretHash P claim) := by
    intro r hr
    have hclaimed : r.claimedBy P claim = true := (List.mem_filter.mp hr).2
    rw [BrowserRow.claimedBy, Bool.and_eq_true, decide_eq_true_eq] at hclaimed
    exact hclaimed.1
  generalize (db.rows .browserAuthorizations).filter (BrowserRow.claimedBy P claim) = rows
    at hpair hhash
  cases rows with
  | nil => exact Nat.zero_le _
  | cons r rows =>
      cases rows with
      | nil => exact Nat.le_refl _
      | cons r' rows =>
          have hr := hhash r List.mem_cons_self
          have hr' := hhash r' (List.mem_cons_of_mem _ List.mem_cons_self)
          exact absurd hr' (List.rel_of_pairwise_cons hpair List.mem_cons_self _ hr)

theorem read_only {r : Reply} (h : (program P c).run db = (r, db')) (hw : c.call.writes = []) :
    db' = db := by
  refine Db.ext_rows fun t => ?_
  have hsame : t ∉ c.call.writes := by
    rw [hw]
    exact List.not_mem_nil
  have := program_frame (P := P) hsame db
  rwa [h] at this

/-- A failure report that fails met no transaction. -/
theorem failCallback_error {claim : String} {e : BrowserError}
    {r : Except BrowserError Unit} (hkeys : KeysUnique db)
    (h : (failCallback P claim).tx.run db = (r, db')) (he : r = .error e) : db' = db := by
  obtain ⟨rfl, hr⟩ := failCallback_run h
  have hle := hkeys.claimed (P := P) claim
  have hne :
      ((db.rows .browserAuthorizations).filter (BrowserRow.claimedBy P claim)).length ≠ 1 := by
    intro hone
    rw [hr, if_pos hone] at he
    cases he
  have hnil : (db.rows .browserAuthorizations).filter (BrowserRow.claimedBy P claim) = [] :=
    List.length_eq_zero_iff.mp (by omega)
  exact Db.update_none _ _ _ _ fun x hx => by simpa using List.filter_eq_nil_iff.mp hnil x hx

/-- A transaction whose secrets are there is started without an error. -/
theorem startSecrets_error {row : BrowserRow} {e : BrowserError}
    (h : row.startSecrets = .error e) : e = .database := by
  unfold BrowserRow.startSecrets at h
  generalize row.upstreamNonce = nonce at h
  generalize row.upstreamVerifier = verifier at h
  cases nonce <;> cases verifier <;> cases h <;> rfl

/-- **Failed browser calls change nothing**, unless they come too late. -/
theorem browser_error {r : Reply} {e : BrowserError} (hkeys : KeysUnique db)
    (h : (program P c).run db = (r, db')) (he : r.browserError = some e) (hne : e ≠ .database) :
    db' = db ∨ TooLate P c db db' := by
  obtain ⟨call, t⟩ := c
  cases call with
  | transactionClientId | callbackClientId | sessionUpstreamAuthTime | consentView =>
      exact Or.inl (read_only h rfl)
  | beginGoogle pending downstreamState oidcNonce allow =>
      obtain ⟨x, hx, rfl⟩ := run_of_map h
      rcases beginGoogle_run hx with ⟨_, hsame⟩ | ⟨rfl, _⟩
      · exact Or.inl hsame
      · cases he
  | startGoogle id state binding =>
      obtain ⟨x, hx, rfl⟩ := run_of_map h
      rcases startGoogle_run hx with ⟨_, hsame⟩ | ⟨row, _, _, rfl, _⟩
      · exact Or.inl hsame
      · -- the only error of a started transaction is a missing secret
        cases hsecrets : row.startSecrets with
        | ok x =>
            rw [hsecrets] at he
            cases he
        | error e' =>
            rw [hsecrets] at he
            cases he
            exact absurd (startSecrets_error hsecrets) hne
  | cancelGoogle id state binding registry =>
      obtain ⟨x, hx, rfl⟩ := run_of_map h
      rcases cancelGoogle_run hx with ⟨_, hsame⟩ | ⟨_, _, _, rfl, _⟩
      · exact Or.inl hsame
      · cases he
  | beginAuthenticated session pending downstreamState oidcNonce allow =>
      obtain ⟨x, hx, rfl⟩ := run_of_map h
      rcases beginAuthenticated_run hx with ⟨_, hsame⟩ | ⟨_, _, _, rfl, _⟩
      · exact Or.inl hsame
      · cases he
  | claimCallback state binding =>
      obtain ⟨x, hx, rfl⟩ := run_of_map h
      rcases claimCallback_run hx with
        ⟨_, hsame⟩ | ⟨row, hrow, ⟨_, hsame, _⟩ | ⟨hlate, _, rfl⟩ | ⟨_, _, _, _, rfl, _⟩⟩
      · exact Or.inl hsame
      · exact Or.inl hsame
      · have hmem := find_mem (t := .browserAuthorizations) hrow
        exact Or.inr (.claim state binding rfl row hmem (List.find?_some hrow) hlate
          (hkeys.id hmem))
      · cases he
  | failCallback claim =>
      obtain ⟨x, hx, rfl⟩ := run_of_map h
      cases x with
      | ok u => cases he
      | error e' => exact Or.inl (failCallback_error hkeys hx rfl)
  | denyCallback claim registry =>
      obtain ⟨x, hx, rfl⟩ := run_of_map h
      rcases denyCallback_run hx with ⟨_, hsame⟩ | ⟨_, _, _, rfl, _⟩
      · exact Or.inl hsame
      · cases he
  | completeCallback claim identity lifetime registry =>
      obtain ⟨x, hx, rfl⟩ := run_of_map h
      rcases completeCallback_run hx with
        ⟨_, hsame⟩ | ⟨row, hrow, _, ⟨hlate, _, rfl⟩ | ⟨_, _, _, rfl, _⟩⟩
      · exact Or.inl hsame
      · have hmem := find_mem (t := .browserAuthorizations) hrow
        exact Or.inr (.login claim identity lifetime registry rfl row hmem (List.find?_some hrow)
          hlate (hkeys.id hmem))
      · cases he
  | approve session handle registry =>
      obtain ⟨x, hx, rfl⟩ := run_of_map h
      rcases approve_run hx with ⟨_, hsame⟩ | ⟨_, _, _, _, _, _, _, _, rfl, _⟩
      · exact Or.inl hsame
      · cases he
  | approvePreAuthorized session handle registry =>
      obtain ⟨x, hx, rfl⟩ := run_of_map h
      rcases approvePreAuthorized_run hx with
        ⟨_, hsame⟩ | ⟨_, _, _, _, _, ⟨rfl, _⟩ | ⟨_, _, _, _, _, rfl, _⟩⟩
      · exact Or.inl hsame
      · cases he
      · cases he
  | deny session handle registry =>
      obtain ⟨x, hx, rfl⟩ := run_of_map h
      rcases deny_run hx with ⟨_, hsame⟩ | ⟨_, _, _, _, rfl, _⟩
      · exact Or.inl hsame
      · cases he
  | _ =>
      obtain ⟨x, _, rfl⟩ := run_of_map h
      cases he

/-! ## 3. The login -/

/-- The user of an identity, once it is there. -/
theorem findIdentity_identified {t : Tape} {identity : VerifiedGoogleIdentity} {now : Time} :
    findIdentity (identified t identity now db).2 googleIssuer identity.subject =
      some (identified t identity now db).1 := by
  have hrows : (identified t identity now db).2.rows .externalIdentities =
      (foundOrCreated t googleIssuer identity.subject db).2.rows .externalIdentities :=
    Db.upsert_rows_ne _ _ _ (by decide)
  have huser : (identified t identity now db).1 =
      (foundOrCreated t googleIssuer identity.subject db).1 := rfl
  unfold findIdentity
  rw [hrows, huser]
  unfold foundOrCreated
  cases hfound : findIdentity db googleIssuer identity.subject with
  | some user => exact hfound
  | none =>
      have hnone : (db.rows .externalIdentities).find? (fun i =>
          i.issuer = googleIssuer && i.subject = identity.subject) = none :=
        Option.map_eq_none_iff.mp hfound
      dsimp only
      rw [Db.insert_rows_self, Db.insert_rows_ne _ _ (by decide), List.find?_append, hnone]
      simp

/-- The profile of an identity, once it is there. -/
theorem profile_identified {t : Tape} {identity : VerifiedGoogleIdentity} {now : Time} :
    ProfileRow.of (identified t identity now db).1 identity now ∈
      (identified t identity now db).2.rows .userProfiles := by
  unfold identified Db.upsert
  dsimp only
  split
  · rename_i hfound
    obtain ⟨p, hp, hkey⟩ := hfound
    rw [Db.update_rows_self]
    refine List.mem_map.mpr ⟨p, hp, ?_⟩
    have hkey' : p.userId = (foundOrCreated t googleIssuer identity.subject db).1 := hkey
    rw [if_pos (decide_eq_true hkey), hkey']
  · rw [Db.insert_rows_self]
    exact List.mem_append_right _ List.mem_cons_self

theorem loggedIn_rows {claim : String} {identity : VerifiedGoogleIdentity} {row : BrowserRow}
    {seconds : Nat} (hrow : row ∈ db.rows .browserAuthorizations)
    (hclaim : row.claimedBy P claim = true) :
    LoggedIn P c claim identity db (loggedInRows P c.tape identity seconds row db) := by
  have hframe : ∀ u, u ≠ .browserAuthorizations → u ≠ .providerSessions →
      (loggedInRows P c.tape identity seconds row db).rows u =
        (identified c.tape identity (c.tape.now 0) db).2.rows u := by
    intro u h₁ h₂
    unfold loggedInRows
    rw [Db.update_rows_ne _ _ _ h₁, Db.insert_rows_ne _ _ h₂]
  refine ⟨⟨(identified c.tape identity (c.tape.now 0) db).1, ?_, ?_, seconds, ?_⟩,
    ⟨row, hrow, hclaim, ?_⟩, ?_⟩
  · unfold findIdentity
    rw [hframe _ (by decide) (by decide)]
    exact findIdentity_identified
  · rw [hframe _ (by decide) (by decide)]
    exact profile_identified
  · unfold loggedInRows
    rw [Db.update_rows_ne _ _ _ (by decide), Db.insert_rows_self, identified_rows (by simp)]
  · unfold loggedInRows
    rw [Db.update_rows_self, Db.insert_rows_ne _ _ (by decide), identified_rows (by simp)]
    refine List.mem_map.mpr ⟨row, hrow, ?_⟩
    simp [BrowserRow.completable, claimedBy_stage hclaim]
  · rw [hframe _ (by decide) (by decide), identified_rows (by simp)]

/-- **Failed browser calls.** Whatever is stored, with unique keys, a browser call that fails
    changes nothing, except that a callback or a login that comes too late marks its one
    transaction as expired. So a login is there with its user, its profile and one session, or
    nothing of it is; and an approval without a page that asks for one changes nothing. -/
theorem browser_errors (P : Platform) (c : Request) {db : Db} (hkeys : KeysUnique db) :
    (∀ e, ((program P c).run db).1.browserError = some e → e ≠ .database →
      ((program P c).run db).2 = db ∨ TooLate P c db ((program P c).run db).2) ∧
    (∀ claim identity lifetime registry, c.call = .completeCallback claim identity lifetime
      registry →
      (((program P c).run db).1.isOk = true ∧
        LoggedIn P c claim identity db ((program P c).run db).2) ∨
      (((program P c).run db).1.isOk = false ∧
        (((program P c).run db).2 = db ∨ TooLate P c db ((program P c).run db).2))) ∧
    ∀ session handle registry, c.call = .approvePreAuthorized session handle registry →
      ((program P c).run db).1 = .preApproved (.ok none) → ((program P c).run db).2 = db := by
  generalize hrun : (program P c).run db = out
  obtain ⟨r, db'⟩ := out
  refine ⟨fun e he hne => browser_error hkeys hrun he hne,
    fun claim identity lifetime registry hc => ?_, fun session handle registry hc hr => ?_⟩
  · obtain ⟨call, t⟩ := c
    obtain rfl := hc
    obtain ⟨x, hx, rfl⟩ := run_of_map hrun
    rcases completeCallback_run hx with
      ⟨⟨e, rfl⟩, hsame⟩ | ⟨row, hrow, _, ⟨hlate, rfl, rfl⟩ | ⟨seconds, _, _, rfl, rfl⟩⟩
    · exact Or.inr ⟨rfl, Or.inl hsame⟩
    · have hmem := find_mem (t := .browserAuthorizations) hrow
      exact Or.inr ⟨rfl, Or.inr (.login claim identity lifetime registry rfl row hmem
        (List.find?_some hrow) hlate (hkeys.id hmem))⟩
    · exact Or.inl ⟨rfl,
        loggedIn_rows (find_mem (t := .browserAuthorizations) hrow) (List.find?_some hrow)⟩
  · obtain ⟨call, t⟩ := c
    obtain rfl := hc
    obtain ⟨x, hx, rfl⟩ := run_of_map hrun
    rcases approvePreAuthorized_run hx with
      ⟨_, hsame⟩ | ⟨_, _, _, _, _, ⟨_, hsame⟩ | ⟨_, _, _, _, _, rfl, _⟩⟩
    · exact hsame
    · exact hsame
    · cases hr

/-- A login that comes eleven minutes after its transaction began. -/
theorem browser_errors_late_login :
    let db := (Sample.machine Sample.callbackSteps).db
    let login : Request := ⟨.completeCallback "claim" Sample.identity ⟨3600, 0⟩
      (some Sample.registry), Sample.tape 660 [.cookie, .csrf]⟩
    ((program Sample.platform login).run db).1.isOk = false ∧
    (((program Sample.platform login).run db).2 = db ∨
      TooLate Sample.platform login db ((program Sample.platform login).run db).2) := by
  intro db login
  have hreach : Reachable Sample.platform (Sample.machine Sample.callbackSteps) :=
    Sample.reachable (by decide)
  have hkeys : KeysUnique db := keysUnique_of_integrity (reachable_integrity hreach)
  have hfails : ((program Sample.platform login).run db).1.isOk = false := by decide +kernel
  rcases (browser_errors Sample.platform login hkeys).2.1 _ _ _ _ rfl with ⟨hok, _⟩ | h
  · rw [hfails] at hok
    cases hok
  · exact h

end Eri
