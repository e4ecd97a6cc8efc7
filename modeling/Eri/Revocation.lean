/-
  File:      Eri/Revocation.lean
  Subject:   Logout and revocation are final, however other calls overlap with them.

  * `FamiliesRevoked`, `familiesRevoked_kept` -- the families of a revoked session are
    revoked: a family is made under the lock of a session that is live then;
  * `ActsFor` -- the calls that need a live session, and what names it;
  * `actsFor_live` -- each of them fails once the session is revoked;
  * **`revocation_final`**.
-/
import Eri.Codes

namespace Eri

open Sql

variable {P : Platform} {M : Machine schema Request Reply} {a db db' : Db} {c : Request}

/-! ## 1. Revoked sessions -/

/-- The session is revoked. -/
def SessionRevoked (db : Db) (session : Uuid) : Prop :=
  ∃ s ∈ db.rows .providerSessions, SessionRow.id s = session ∧
    (SessionRow.revokedAt s).isSome = true

/-- **The families of a revoked session are revoked.** -/
def FamiliesRevoked (db : Db) : Prop :=
  ∀ s ∈ db.rows .providerSessions, (SessionRow.revokedAt s).isSome = true →
    ∀ f ∈ db.rows .refreshFamilies, FamilyRow.sessionId f = SessionRow.id s →
      (FamilyRow.revokedAt f).isSome = true

theorem sessionRevoked_kept (session : Uuid) :
    Kept (contract P) (program P) fun db => SessionRevoked db session :=
  kept_row fun r r' hl hq => by
    refine ⟨?_, hl.revoked.isSome hq.2⟩
    rw [hl.keeps]
    exact hq.1

theorem SessionRow.active_unrevoked {s : SessionRow} {now : Time} (h : s.active now = true) :
    s.revokedAt = none := by
  unfold SessionRow.active at h
  rw [Bool.and_eq_true, Option.isNone_iff_eq_none] at h
  exact h.1

/-- A session that is live is not revoked. -/
theorem not_sessionRevoked {s : SessionRow} {now : Time} (hI : (layout P).Integrity db)
    (hs : s ∈ db.rows .providerSessions) (h : s.active now = true) :
    ¬SessionRevoked db s.id := by
  rintro ⟨x, hx, hid, hrevoked⟩
  have e : x = s := same_key hI hx hs hid
  rw [e, SessionRow.active_unrevoked h] at hrevoked
  cases hrevoked

/-- Families only move on, sessions stay. -/
theorem FamiliesRevoked.of_later (h : FamiliesRevoked a)
    (hs : db.rows .providerSessions = a.rows .providerSessions)
    (hf : ∀ f ∈ db.rows .refreshFamilies, ∃ x ∈ a.rows .refreshFamilies,
      FamilyRow.Later x f) : FamiliesRevoked db := by
  intro s hmem hrevoked f hfmem hof
  rw [hs] at hmem
  obtain ⟨x, hx, hl⟩ := hf f hfmem
  refine hl.revoked.isSome (h s hmem hrevoked x hx ?_)
  rw [hl.keeps] at hof
  exact hof

/-- A logout revokes the families with the session. -/
theorem FamiliesRevoked.logout {session : SessionRow} {now : Time}
    {set : FamilyRow → FamilyRow} (h : FamiliesRevoked a)
    (hset : ∀ f, ∃ at_, set f = f.revoke at_)
    (hsessions : db.rows .providerSessions = (a.update .providerSessions
      (fun s => s.id = session.id) (.revoke now)).rows .providerSessions)
    (hfamilies : db.rows .refreshFamilies = (a.update .refreshFamilies
      (fun f => f.sessionId = session.id) set).rows .refreshFamilies) : FamiliesRevoked db := by
  intro s hs hrevoked f hf hof
  rw [hsessions, Db.update_rows_self] at hs
  rw [hfamilies, Db.update_rows_self] at hf
  obtain ⟨x, hx, rfl⟩ := List.mem_map.mp hs
  obtain ⟨y, hy, rfl⟩ := List.mem_map.mp hf
  by_cases hyid : y.sessionId = session.id
  · obtain ⟨at_, e⟩ := hset y
    simp [hyid, e, FamilyRow.revoke]
  · simp only [hyid, decide_false, Bool.false_eq_true, if_false] at hof ⊢
    by_cases hxid : x.id = session.id
    · simp only [hxid, decide_true, if_true] at hof
      exact absurd (hof.trans hxid) hyid
    · simp only [hxid, decide_false, Bool.false_eq_true, if_false] at hof hrevoked
      exact h x hx hrevoked y hy hof

/-- **Every call keeps the families of revoked sessions revoked.** -/
theorem familiesRevoked_kept : Kept (contract P) (program P) FamiliesRevoked := by
  refine kept_of_change fun c a r b hgood hchange h => ?_
  have hself : ∀ f ∈ a.rows .refreshFamilies, ∃ x ∈ a.rows .refreshFamilies,
      FamilyRow.Later x f := fun f hf => ⟨f, hf, rfl, .refl _⟩
  have hrevoked : ∀ (p : FamilyRow → Bool) now, ∀ f ∈ (a.update .refreshFamilies p
      (.revoke now)).rows .refreshFamilies, ∃ x ∈ a.rows .refreshFamilies,
      FamilyRow.Later x f := fun p now =>
    origin_update (t := .refreshFamilies) fun f => FamilyRow.later_revoke f now
  cases hchange with
  | same hr hsame =>
      refine h.of_later (hsame _ (by simp)) ?_
      rw [hsame .refreshFamilies (by simp)]
      exact hself
  | login hr s hs hrows hsame =>
      intro x hx hrevoked f hf hof
      rw [hrows] at hx
      rw [hsame .refreshFamilies (by simp)] at hf
      rcases List.mem_append.mp hx with hx | hx
      · exact h x hx hrevoked f hf hof
      · rw [List.mem_singleton.mp hx, hs] at hrevoked
        cases hrevoked
  | issue hr code hc hrows hsame =>
      refine h.of_later (hsame _ (by simp)) ?_
      rw [hsame .refreshFamilies (by simp)]
      exact hself
  | exchange raw hc code session hshown hredeem =>
      intro s hs hrevoked f hf hof
      have hsessions : (exchangedRows P c.tape code session a).rows .providerSessions =
          a.rows .providerSessions := by
        unfold exchangedRows
        split
        · rw [Db.insert_rows_ne _ _ (by decide), Db.insert_rows_ne _ _ (by decide),
            Db.update_rows_ne _ _ _ (by decide)]
        · rw [Db.update_rows_ne _ _ _ (by decide)]
      rw [hsessions] at hs
      rcases (CredentialChange.exchange raw hc code session hshown hredeem).family_origin f hf
        with ⟨x, hx, hl⟩ | ⟨raw', stored, login, _, hshown', hredeem', _, rfl⟩
      · rw [hl.keeps] at hof
        exact hl.revoked.isSome (h s hs hrevoked x hx hof)
      · -- the session of a new family is live
        have hid : login.id = s.id := hshown'.ofLogin.trans hof
        exact absurd ⟨s, hs, hid.symm, hrevoked⟩
          (not_sessionRevoked hgood.inv hshown'.login hredeem'.active)
  | replayCode => exact h.of_later (Db.update_rows_ne _ _ _ (by decide)) (hrevoked _ _)
  | rotate raw hc member family session hshown hrotate =>
      unfold rotatedRows
      refine h.of_later ?_ ?_
      · rw [Db.update_rows_ne _ _ _ (by decide), Db.insert_rows_ne _ _ (by decide)]
      · rw [Db.update_rows_ne _ _ _ (by decide), Db.insert_rows_ne _ _ (by decide)]
        exact hself
  | revoke => exact h.of_later (Db.update_rows_ne _ _ _ (by decide)) (hrevoked _ _)
  | logout session hs hr now set hset hsessions hfamilies hsame =>
      exact h.logout hset hsessions hfamilies

/-! ## 2. Calls that need a live session -/

/-- The session a call is made with. -/
def Call.sessionOf : Call → Option Uuid
  | .issueAuthorizationCode session .. | .beginLogout session .. | .beginLocal session ..
  | .finish session .. | .finishHint session .. | .beginAuthenticated session ..
  | .approve session .. | .approvePreAuthorized session .. => some session.id
  | _ => none

/-- **The call of `e` needs the session**: it is made with it, or it presents a code or a
    refresh token of it. -/
def ActsFor (P : Platform) (e : Entry) (session : Uuid) : Prop :=
  e.call.call.sessionOf = some session ∨
  (∃ raw, e.call.call.exchangeOf = some raw ∧ ∃ code ∈ e.before.rows .authorizationCodes,
    AuthorizationCodeRow.codeHash code = secretHash P raw ∧
    (AuthorizationCodeRow.toCodeRow code).sessionId = session) ∨
  ∃ f ∈ e.before.rows .refreshFamilies, FamilyRow.sessionId f = session ∧
    PresentsTokenOf P e (FamilyRow.id f)

/-- **A call made with a session succeeds for a live session.** -/
theorem sessionOf_live {r : Reply} {u : Uuid} (h : (program P c).run db = (r, db'))
    (hc : c.call.sessionOf = some u) (hr : r.isOk = true) :
    ∃ s, findSession db u = some s ∧ s.active (c.tape.now 0) = true := by
  obtain ⟨call, t⟩ := c
  cases call with
  | issueAuthorizationCode session grant lifetime =>
      cases hc
      obtain ⟨x, hx, rfl⟩ := run_of_map h
      rcases issueAuthorizationCode_run hx with ⟨e, rfl, _⟩ | ⟨_, s, _, hs, hactive, _⟩
      · cases hr
      · exact ⟨s, hs, hactive⟩
  | beginLogout session clientId redirect state registry =>
      cases hc
      obtain ⟨x, hx, rfl⟩ := run_of_map h
      rcases beginLogout_run hx with ⟨⟨e, rfl⟩, _⟩ | ⟨s, hs, hactive, _⟩
      · cases hr
      · exact ⟨s, hs, hactive⟩
  | beginLocal session localUri =>
      cases hc
      obtain ⟨x, hx, rfl⟩ := run_of_map h
      rcases insertLogout_run hx with ⟨e, rfl, _⟩ | ⟨s, hs, hactive, _⟩
      · cases hr
      · exact ⟨s, hs, hactive⟩
  | finish session challenge registry =>
      cases hc
      obtain ⟨x, hx, rfl⟩ := run_of_map h
      obtain ⟨y, hy, rfl⟩ := run_of_map hx
      rcases finishInner_run hy with ⟨⟨e, rfl⟩, _⟩ | ⟨s, hs, hactive, _⟩
      · cases hr
      · exact ⟨s, hs, hactive⟩
  | finishHint session challenge registry hint =>
      cases hc
      obtain ⟨x, hx, rfl⟩ := run_of_map h
      rcases finishInner_run hx with ⟨⟨e, rfl⟩, _⟩ | ⟨s, hs, hactive, _⟩
      · cases hr
      · exact ⟨s, hs, hactive⟩
  | beginAuthenticated session pending downstreamState oidcNonce allow =>
      cases hc
      obtain ⟨x, hx, rfl⟩ := run_of_map h
      rcases beginAuthenticated_run hx with ⟨⟨e, rfl⟩, _⟩ | ⟨s, hs, hactive, _⟩
      · cases hr
      · exact ⟨s, hs, hactive⟩
  | approve session handle registry =>
      cases hc
      obtain ⟨x, hx, rfl⟩ := run_of_map h
      rcases approve_run hx with ⟨⟨e, rfl⟩, _⟩ | ⟨s, _, _, _, hp, _⟩
      · cases hr
      · exact ⟨s, hp.lockedSession, hp.active⟩
  | approvePreAuthorized session handle registry =>
      cases hc
      obtain ⟨x, hx, rfl⟩ := run_of_map h
      rcases approvePreAuthorized_run hx with ⟨⟨e, rfl⟩, _⟩ | ⟨s, _, _, hp, _⟩
      · cases hr
      · exact ⟨s, hp.lockedSession, hp.active⟩
  | _ => cases hc

/-- A call that exchanges or rotates succeeds by granting. -/
theorem granted_of_isOk {r : Reply} {raw : String} (h : (program P c).run db = (r, db'))
    (hc : c.call.exchangeOf = some raw ∨ c.call.rotationOf = some raw) (hr : r.isOk = true) :
    r.granted.isSome = true := by
  have hreply : ∃ x, r = .exchanged x := by
    rcases hc with hc | hc
    · rcases exchange_run hc h with ⟨e, rfl, _⟩ | ⟨_, x, _, _, rfl, _⟩ <;> exact ⟨_, rfl⟩
    · rcases rotate_run hc h with ⟨e, rfl, _⟩ | ⟨_, x, _, _, rfl, _⟩ <;> exact ⟨_, rfl⟩
  obtain ⟨x, rfl⟩ := hreply
  cases x with
  | error e => cases hr
  | ok x => rfl

/-- **No call succeeds for a revoked session.** -/
theorem actsFor_live {e : Entry} {session : Uuid} (h : Reachable P M) (he : e ∈ M.log)
    (hrevoked : SessionRevoked e.before session) (hacts : ActsFor P e session) :
    e.reply.isOk = false := by
  obtain ⟨hgood, hrun⟩ := reachable_entry (lawful P) h he
  by_contra hok
  rw [Bool.not_eq_false] at hok
  rcases hacts with
    hc | ⟨raw, hc, code, hcode, hhash, rfl⟩ | ⟨f, hf, rfl, raw, hc, m, hm, hhash, hof⟩
  · obtain ⟨s, hs, hactive⟩ := sessionOf_live hrun hc hok
    obtain ⟨hmem, rfl⟩ := findSession_mem hs
    exact not_sessionRevoked hgood.inv hmem hactive hrevoked
  · have hgranted := granted_of_isOk hrun (Or.inl hc) hok
    obtain ⟨stored, s, hI, hshown, hredeem, _⟩ := exchanged_entry h he ⟨hc, hgranted⟩
    have e₁ : code = stored := same_codeHash hI hcode hshown.stored (hhash.trans hshown.hash.symm)
    rw [e₁, ← hshown.ofLogin] at hrevoked
    exact not_sessionRevoked hI hshown.login hredeem.active hrevoked
  · have hgranted := granted_of_isOk hrun (Or.inr hc) hok
    obtain ⟨stored, family, s, hI, hshown, hrotate, _⟩ := rotated_entry h he ⟨hc, hgranted⟩
    have e₁ : m = stored := same_hash hI hm hshown.stored (hhash.trans hshown.hash.symm)
    have e₂ : family = f := same_key hI hshown.grant hf
      ((hshown.ofGrant.trans (e₁ ▸ rfl)).trans hof)
    rw [← e₂, ← hshown.ofLogin] at hrevoked
    exact not_sessionRevoked hI hshown.login hrotate.active hrevoked

/-! ## 3. Calls that revoke -/

/-- The session a call logs out. -/
def Call.logsOut : Call → Option Uuid
  | .logout session | .finish session .. | .finishHint session .. => some session.id
  | _ => none

/-- The logout was committed; `finish_hint` may also ask for a confirmation. -/
def Reply.loggedOut : Reply → Bool
  | .revoked (.ok _) | .finished (.ok _) | .hinted (.ok (some _)) => true
  | _ => false

theorem sessionRevoked_logout {s : SessionRow} {now : Time} {set : FamilyRow → FamilyRow}
    (hs : s ∈ db.rows .providerSessions) : SessionRevoked (loggedOutRows s.id now set db) s.id := by
  refine ⟨s.revoke now, ?_, rfl, rfl⟩
  unfold loggedOutRows
  rw [Db.update_rows_ne _ _ _ (by decide), Db.update_rows_self]
  exact List.mem_map.mpr ⟨s, hs, by simp⟩

/-- **A logout leaves its session revoked.** -/
theorem logsOut_revoked {r : Reply} {u : Uuid} (h : (program P c).run db = (r, db'))
    (hc : c.call.logsOut = some u) (hr : r.loggedOut = true) : SessionRevoked db' u := by
  obtain ⟨call, t⟩ := c
  cases call with
  | logout session =>
      cases hc
      obtain ⟨x, hx, rfl⟩ := run_of_map h
      rcases logout_run hx with ⟨rfl, _⟩ | ⟨s, hs, _, rfl⟩
      · cases hr
      · obtain ⟨hmem, hid⟩ := findSession_mem hs
        rw [← hid]
        exact sessionRevoked_logout hmem
  | finish session challenge registry =>
      cases hc
      obtain ⟨x, hx, rfl⟩ := run_of_map h
      obtain ⟨y, hy, rfl⟩ := run_of_map hx
      rcases finishInner_run hy with ⟨⟨e, rfl⟩, _⟩ | ⟨s, hs, _, ⟨rfl, _⟩ | ⟨_, rfl, rfl⟩⟩
      · cases hr
      · cases hr
      · obtain ⟨hmem, hid⟩ := findSession_mem hs
        rw [← hid]
        refine sessionRevoked_logout ?_
        rwa [Db.update_rows_ne _ _ _ (by decide)]
  | finishHint session challenge registry hint =>
      cases hc
      obtain ⟨y, hy, rfl⟩ := run_of_map h
      rcases finishInner_run hy with ⟨⟨e, rfl⟩, _⟩ | ⟨s, hs, _, ⟨rfl, _⟩ | ⟨_, rfl, rfl⟩⟩
      · cases hr
      · cases hr
      · obtain ⟨hmem, hid⟩ := findSession_mem hs
        rw [← hid]
        refine sessionRevoked_logout ?_
        rwa [Db.update_rows_ne _ _ _ (by decide)]
  | _ => cases hc

/-- **The client of a family revokes it with any of its tokens**, used or not. -/
def RevokesFamily (P : Platform) (e : Entry) (family : Uuid) : Prop :=
  ∃ raw clientId, e.call.call = .revokeRefresh raw clientId ∧ e.reply.isOk = true ∧
    (∃ m ∈ e.before.rows .refreshTokenMembers, MemberRow.tokenHash m = secretHash P raw ∧
      MemberRow.familyId m = family) ∧
    ∃ f ∈ e.before.rows .refreshFamilies, FamilyRow.id f = family ∧
      FamilyRow.clientId f = clientId

theorem revokesFamily_entry {e : Entry} {family : Uuid} (h : Reachable P M) (he : e ∈ M.log)
    (hr : RevokesFamily P e family) : Revoked e.after family := by
  obtain ⟨raw, clientId, hc, hok, ⟨m, hm, hhash, hof⟩, f, hf, hid, hclient⟩ := hr
  obtain ⟨hgood, hrun⟩ := reachable_entry (lawful P) h he
  generalize e.call = c at hc hrun
  obtain ⟨call, t⟩ := c
  cases hc
  obtain ⟨x, hx, hreply⟩ := run_of_map hrun
  -- the row found by the hash is this token, and its family is `f`
  have hfound : findMember e.before (secretHash P raw) = some (m, f) :=
    findMember_of_mem hgood.inv hm hhash hf (hid.trans hof.symm)
  rcases revokeRefresh_run hx with ⟨_, _, hno⟩ | ⟨seen, hseen, _, ⟨rfl, _⟩ | ⟨_, hafter⟩⟩
  · exact absurd hclient (hno _ hfound)
  · rw [hreply] at hok
    cases hok
  · rw [hfound] at hseen
    cases hseen
    rw [hafter, hof, ← hid]
    exact revoked_rows hf

/-! ## 4. Runs -/

/-- **Logout and revocation are final.** A revoked session has only revoked families; after a
    logout of a session nothing that needs the session succeeds; after a family is revoked by
    its client none of its tokens is rotated; and `revoked_at` never changes. -/
theorem revocation_final (P : Platform) {M : Machine schema Request Reply}
    (h : Reachable P M) :
    FamiliesRevoked M.db ∧
    (∀ e ∈ M.log, ∀ session, e.call.call.logsOut = some session → e.reply.loggedOut = true →
      ∀ e', Before M e e' → ActsFor P e' session → e'.reply.isOk = false) ∧
    (∀ e ∈ M.log, ∀ family, RevokesFamily P e family →
      ∀ e', Before M e e' → PresentsTokenOf P e' family → e'.reply.isOk = false) ∧
    ∀ M', Steps (program P) (contract P).compat M M' →
      (∀ s ∈ M.db.rows .providerSessions, (SessionRow.revokedAt s).isSome = true →
        ∃ s' ∈ M'.db.rows .providerSessions, SessionRow.id s' = SessionRow.id s ∧
          SessionRow.revokedAt s' = SessionRow.revokedAt s) ∧
      ∀ f ∈ M.db.rows .refreshFamilies, (FamilyRow.revokedAt f).isSome = true →
        ∃ f' ∈ M'.db.rows .refreshFamilies, FamilyRow.id f' = FamilyRow.id f ∧
          FamilyRow.revokedAt f' = FamilyRow.revokedAt f := by
  refine ⟨reachable_kept (lawful P) familiesRevoked_kept (fun s hs => by cases hs) h,
    fun e he session hc hr e' hs hacts => ?_, fun e he family hr e' hs hp => ?_,
    fun M' hsteps => ?_⟩
  · have hafter : SessionRevoked e.after session :=
      logsOut_revoked (reachable_entry (lawful P) h he).2 hc hr
    have hbefore := kept_between (lawful P) (sessionRevoked_kept session) h hs hafter
    exact actsFor_live h (hs.subset (by simp)) hbefore hacts
  · have hafter := revokesFamily_entry h he hr
    have hbefore := kept_between (lawful P) (revoked_kept family) h hs hafter
    have hmem : e' ∈ M.log := hs.subset (by simp)
    have hnone := revoked_before h hmem hbefore hp
    obtain ⟨raw, hc, _⟩ := hp
    by_contra hok
    have hsome := granted_of_isOk (reachable_entry (lawful P) h hmem).2 (Or.inr hc)
      ((Bool.not_eq_false _).mp hok)
    rw [hnone] at hsome
    cases hsome
  · have hrely := steps_rely (lawful P) h hsteps
    refine ⟨fun s hs hrevoked => ?_, fun f hf hrevoked => ?_⟩
    · obtain ⟨s', hs', hl⟩ := hrely.later hs
      obtain ⟨at_, e⟩ := Option.isSome_iff_exists.mp hrevoked
      exact ⟨s', hs', Row.later_key (t := .providerSessions) hl,
        (SessionRow.Later.revoked hl at_ e).trans e.symm⟩
    · obtain ⟨f', hf', hl⟩ := hrely.later hf
      obtain ⟨at_, e⟩ := Option.isSome_iff_exists.mp hrevoked
      exact ⟨f', hf', Row.later_key (t := .refreshFamilies) hl,
        (FamilyRow.Later.revoked hl at_ e).trans e.symm⟩

/-- The user signs out, and then the last token of a grant and a new code are asked for. -/
def Sample.logoutSteps : List Step :=
  grantSteps ++
    [(.logout ⟨"session", 2, 3601 * second⟩, [.logout]),
     (.rotateRefresh "successor" grant.clientId grant.resource, [.replay]),
     (.issueAuthorizationCode ⟨"session", 2, 3601 * second⟩ grant ⟨60, 0⟩, [.last])]

/-- What a logout leaves of a grant. -/
theorem revocation_final_logout :
    FamiliesRevoked (Sample.machine Sample.logoutSteps).db ∧
    SessionRevoked (Sample.machine Sample.logoutSteps).db 2 ∧
    (Sample.machine Sample.logoutSteps).log.map (fun e => e.reply.isOk) =
      [true, true, true, true, true, true, false, false] := by
  have hreach : Reachable Sample.platform (Sample.machine Sample.logoutSteps) :=
    Sample.reachable (by decide)
  refine ⟨(revocation_final Sample.platform hreach).1, ?_⟩
  unfold SessionRevoked
  decide +kernel

end Eri
