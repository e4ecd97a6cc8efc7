/-
  File:      Eri/Writes.lean
  Subject:   Which tables each call of the stores writes.
-/
import Eri.Store

namespace Eri

open Sql

/-- The tables a call can write. -/
def Call.writes : Call → List Table
  | .createProviderSession .. => [.providerSessions]
  | .issueAuthorizationCode .. => [.authorizationCodes]
  | .exchangeCode .. | .exchangeCodeRequest .. =>
      [.authorizationCodes, .refreshFamilies, .refreshTokenMembers]
  | .rotateRefresh .. | .rotateRefreshRequest .. => [.refreshFamilies, .refreshTokenMembers]
  | .revokeRefresh .. => [.refreshFamilies]
  | .logout .. => [.providerSessions, .refreshFamilies]
  | .beginLogout .. | .beginLocal .. => [.logoutChallenges]
  | .finish .. | .finishHint .. => [.logoutChallenges, .providerSessions, .refreshFamilies]
  | .beginGoogle .. | .startGoogle .. | .cancelGoogle .. | .beginAuthenticated ..
  | .claimCallback .. | .failCallback .. | .denyCallback .. | .deny .. =>
      [.browserAuthorizations]
  | .completeCallback .. =>
      [.users, .externalIdentities, .userProfiles, .providerSessions, .browserAuthorizations]
  | .approve .. | .approvePreAuthorized .. => [.authorizationCodes, .browserAuthorizations]
  | .findOrCreateExternalIdentity .. => [.users, .externalIdentities]
  | .findOrCreateVerifiedGoogleIdentity .. => [.users, .externalIdentities, .userProfiles]
  | .findProviderSession .. | .transactionClientId .. | .callbackClientId ..
  | .sessionUpstreamAuthTime .. | .consentView .. | .userProfile .. => []

section Within

variable {P : Platform} {t : Tape} {T : Table → Prop}

theorem within_exchangeCodeBound (i : Nat) (raw clientId redirectUri resource verifier : String)
    (registry : Option ClientRegistry) (hc : T .authorizationCodes) (hf : T .refreshFamilies)
    (hm : T .refreshTokenMembers) :
    Tx.Within (S := schema) T (exchangeCodeBound P t i raw clientId redirectUri resource
      verifier registry Empty.elim) := by
  simp [exchangeCodeBound, within_ite, createFamily, insertRefresh, hc, hf, hm]

theorem within_rotateRefreshBound (raw clientId resource : String)
    (registry : Option ClientRegistry) (hf : T .refreshFamilies) (hm : T .refreshTokenMembers) :
    Tx.Within (S := schema) T (rotateRefreshBound P t raw clientId resource registry
      Empty.elim) := by
  simp [rotateRefreshBound, within_ite, insertRefresh, hf, hm]

theorem within_revokeRefresh (raw clientId : String) (hf : T .refreshFamilies) :
    Tx.Within (S := schema) T (revokeRefresh P t raw clientId).tx := by
  refine (within_select _).mpr fun lookup => ?_
  beta_reduce
  generalize Option.filter (fun lookup : RevocationLookup => decide (lookup.clientId =
    clientId)) lookup = found
  cases found with
  | none => trivial
  | some lookup => simp [hf]

theorem within_insertLogout (session : ProviderSession) (clientId redirect : String)
    (state : Option String) (hl : T .logoutChallenges) :
    Tx.Within (S := schema) T (insertLogout P t session clientId redirect state).tx := by
  simp [Op.tx, insertLogout, lockSession, hl]

theorem within_finishInner (session : ProviderSession) (challenge : LogoutChallenge)
    (registry : ClientRegistry) (hint : Option IdClaims) (hl : T .logoutChallenges)
    (hs : T .providerSessions) (hf : T .refreshFamilies) :
    Tx.Within (S := schema) T (finishInner P t session challenge registry hint).tx := by
  simp [Op.tx, finishInner, lockSession, hl, hs, hf, within_updateEach]

theorem within_findOrCreateUser {ρ : Type} {issuer subject : String} {k : Uuid → Tx schema ρ}
    (hu : T .users) (hi : T .externalIdentities) (hk : ∀ user, (k user).Within T) :
    (findOrCreateUser t issuer subject k).Within T := by
  refine (within_select _).mpr fun existing => ?_
  cases existing with
  | some user => exact hk user
  | none => simp [hu, hi, hk]

theorem within_checkedStaged {ε α β : Type} {x : Except ε α} {k : α → Tx schema (Except ε β)}
    (hk : ∀ a, x = .ok a → (k a).Within T) : (checkedStaged x k).Within T := by
  cases x with
  | ok a => exact hk a rfl
  | error e => simp [checkedStaged]

theorem within_completeCallback (claim : String) (identity : VerifiedGoogleIdentity)
    (lifetime : Duration) (registry : Option ClientRegistry) (hu : T .users)
    (hi : T .externalIdentities) (hp : T .userProfiles) (hs : T .providerSessions)
    (hb : T .browserAuthorizations) :
    Tx.Within (S := schema) T (completeCallback P t claim identity lifetime registry).tx := by
  simp only [completeCallback, Op.tx, bind_apply, within_checked, within_lockOr,
    within_savepoint, lockVerifiedGoogleIdentity, within_advisoryLock]
  intro _ _ row policyRow _ _
  refine within_checkedStaged fun _ _ => within_findOrCreateUser hu hi fun user => ?_
  refine (within_upsert ..).mpr ⟨hp, (within_insert ..).mpr ⟨hs, fun session => ?_⟩⟩
  refine within_ite.mpr ⟨fun _ => ?_, fun _ => ?_⟩
  · simp [hb]
  · refine within_checkedStaged fun _ _ => ?_
    simp [hb]

/-- **A call writes only the tables of its kind.** -/
theorem program_within (P : Platform) (c : Request) :
    (program P c).Within fun t : Table => t ∈ c.call.writes := by
  unfold program
  cases c.call with
  | createProviderSession user lifetime =>
      exact within_map _ (by simp [Op.tx, createProviderSession, Call.writes])
  | findProviderSession raw => exact within_map _ (by simp [Op.tx, findProviderSession])
  | issueAuthorizationCode session grant lifetime =>
      exact within_map _
        (by simp [Op.tx, issueAuthorizationCode, insertAuthorizationCode, Call.writes])
  | exchangeCode raw clientId redirectUri resource verifier =>
      exact within_map _ (within_exchangeCodeBound _ _ _ _ _ _ _ (by simp [Call.writes])
        (by simp [Call.writes]) (by simp [Call.writes]))
  | exchangeCodeRequest raw clientId redirectUri resource verifier scopes registry =>
      refine within_map _ ?_
      simp only [Op.tx, exchangeCodeRequest, bind_apply, within_selectOr, within_ensure,
        within_checked]
      exact fun _ _ _ _ => within_exchangeCodeBound _ _ _ _ _ _ _ (by simp [Call.writes])
        (by simp [Call.writes]) (by simp [Call.writes])
  | rotateRefresh raw clientId resource =>
      exact within_map _ (within_rotateRefreshBound _ _ _ _ (by simp [Call.writes])
        (by simp [Call.writes]))
  | rotateRefreshRequest raw clientId resource scopes registry =>
      refine within_map _ ?_
      simp only [Op.tx, rotateRefreshRequest, bind_apply, within_selectOr, within_ensure]
      exact fun _ _ => within_rotateRefreshBound _ _ _ _ (by simp [Call.writes])
        (by simp [Call.writes])
  | revokeRefresh raw clientId =>
      exact within_map _ (within_revokeRefresh _ _ (by simp [Call.writes]))
  | logout session =>
      exact within_map _ (by simp [Op.tx, logout, Call.writes, within_updateEach])
  | beginLogout session clientId redirect state registry =>
      refine within_map _ ?_
      simp only [Op.tx, beginLogout, bind_apply, within_ensure]
      exact fun _ => within_insertLogout _ _ _ _ (by simp [Call.writes])
  | beginLocal session localUri =>
      exact within_map _ (within_insertLogout _ _ _ _ (by simp [Call.writes]))
  | finish session challenge registry =>
      exact within_map _ (within_map _ (within_finishInner _ _ _ _ (by simp [Call.writes])
        (by simp [Call.writes]) (by simp [Call.writes])))
  | finishHint session challenge registry hint =>
      exact within_map _ (within_finishInner _ _ _ _ (by simp [Call.writes])
        (by simp [Call.writes]) (by simp [Call.writes]))
  | transactionClientId id => exact within_map _ (by simp [Op.tx, transactionClientId])
  | callbackClientId claim => exact within_map _ (by simp [Op.tx, callbackClientId])
  | beginGoogle pending downstreamState oidcNonce allow =>
      exact within_map _ (by simp [Op.tx, beginGoogle, Call.writes])
  | startGoogle transactionId state binding =>
      refine within_map _ ⟨by simp [Stmt.Within, Call.writes], fun rows => ?_⟩
      cases rows with
      | nil => trivial
      | cons row rows => trivial
  | cancelGoogle transactionId state binding registry =>
      exact within_map _ (by simp [Op.tx, cancelGoogle, Call.writes])
  | beginAuthenticated session pending downstreamState oidcNonce allow =>
      exact within_map _ (by simp [Op.tx, beginAuthenticated, lockSession, Call.writes])
  | sessionUpstreamAuthTime session =>
      exact within_map _ (by simp [Op.tx, sessionUpstreamAuthTime, lockSession])
  | claimCallback state binding =>
      exact within_map _ (by simp [Op.tx, claimCallback, within_ite, Call.writes])
  | failCallback claim => exact within_map _ (by simp [Op.tx, failCallback, Call.writes])
  | denyCallback claim registry =>
      exact within_map _ (by simp [Op.tx, denyCallback, Call.writes])
  | completeCallback claim identity lifetime registry =>
      exact within_map _ (within_completeCallback _ _ _ _ (by simp [Call.writes])
        (by simp [Call.writes]) (by simp [Call.writes]) (by simp [Call.writes])
        (by simp [Call.writes]))
  | approve session handle registry =>
      exact within_map _ (by simp [Op.tx, approve, lockSession, lockConsent, issueConsented,
        insertAuthorizationCode, Call.writes])
  | approvePreAuthorized session handle registry =>
      exact within_map _ (by simp [Op.tx, approvePreAuthorized, lockSession, lockConsent,
        issueConsented, insertAuthorizationCode, Call.writes])
  | consentView session handle registry =>
      exact within_map _ (by simp [Op.tx, consentView, lockSession, lockConsent])
  | deny session handle registry =>
      exact within_map _ (by simp [Op.tx, deny, lockSession, lockConsent, Call.writes])
  | findOrCreateExternalIdentity issuer subject =>
      refine within_map _ ((within_advisoryLock ..).mpr ?_)
      exact within_findOrCreateUser (by simp [Call.writes]) (by simp [Call.writes])
        fun _ => trivial
  | findOrCreateVerifiedGoogleIdentity identity =>
      refine within_map _ ((within_advisoryLock ..).mpr ?_)
      refine within_findOrCreateUser (by simp [Call.writes]) (by simp [Call.writes]) fun user => ?_
      exact (within_upsert ..).mpr ⟨by simp [Call.writes], trivial⟩
  | userProfile user => exact within_map _ (by simp [Op.tx, userProfile])

/-- **Every other table stays as it is.** -/
theorem program_frame {c : Request} {t : Table} (h : t ∉ c.call.writes) (db : Db) :
    ((program P c).run db).2.rows t = db.rows t := run_within (program_within P c) h db

end Within

end Eri
