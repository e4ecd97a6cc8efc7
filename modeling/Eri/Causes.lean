/-
  File:      Eri/Causes.lean
  Subject:   Why sessions and refresh families are revoked (src/auth.rs, src/logout.rs), in every
             run of the application.

  A revocation is final, so nobody may cause one who was not given the means: the browser of the
  session at the logout endpoint, the holder of a token of the family, or the one who presents a
  used code or a used token of it.

  * `RevokedIn`, `revoked_step` -- what one call revokes a family for;
  * `Started`, `session_step` -- what one call does to the sessions;
  * `revoked_origin`, `loggedOut_origin`, `started_origin` -- a run does nothing else;
  * **`revocations_owed`**.
-/
import Eri.Identity
import Eri.LogoutRuns

namespace Eri

open Sql

variable {P : Platform} {M : Machine schema Request Reply} {db db' : Db} {c : Request} {r : Reply}

/-! ## 1. One call -/

/-- **What a call revokes a family for**: its code or one of its tokens is presented once more,
    its client revokes it with one of its tokens, or its session is logged out. -/
inductive RevokedIn (P : Platform) (c : Request) (db : Db) (r : Reply) (f : FamilyRow) : Prop where
  | code {code : AuthorizationCodeRow} (hused : PresentsUsedCode P c db code)
      (hof : f.sourceCodeId = code.id) : RevokedIn P c db r f
  | token {family : FamilyRow} (hused : PresentsUsedToken P c db family)
      (hof : family.id = f.id) : RevokedIn P c db r f
  | client {raw : String} {m : MemberRow} (hcall : c.call = .revokeRefresh raw f.clientId)
      (hm : m ∈ db.rows .refreshTokenMembers) (hhash : m.tokenHash = secretHash P raw)
      (hof : m.familyId = f.id) : RevokedIn P c db r f
  | session (hcall : c.call.logsOut = some f.sessionId) (hr : r.loggedOut = true) :
      RevokedIn P c db r f

/-- The family stays the one that is revoked. -/
theorem RevokedIn.later {f f' : FamilyRow} (h : RevokedIn P c db r f) (hl : f.Later f') :
    RevokedIn P c db r f' := by
  rw [hl.keeps]
  cases h with
  | code hused hof => exact .code hused hof
  | token hused hof => exact .token hused hof
  | client hcall hm hhash hof => exact .client hcall hm hhash hof
  | session hcall hr => exact .session hcall hr

/-- A family that was revoked before, if it is. -/
def FamilyRow.After (x f : FamilyRow) : Prop :=
  x.Later f ∧ (f.revokedAt.isSome = true → x.revokedAt.isSome = true)

theorem FamilyRow.after_refl (f : FamilyRow) : f.After f := ⟨⟨rfl, .refl _⟩, fun h => h⟩

/-- A family after a call: one that was there, or revoked by the call, if it is. -/
def Accounted (P : Platform) (c : Request) (db : Db) (r : Reply) (f : FamilyRow) : Prop :=
  (∃ x ∈ db.rows .refreshFamilies, FamilyRow.After x f) ∨
    (f.revokedAt.isSome = true → RevokedIn P c db r f)

/-- What an update revokes. -/
theorem accounted_update {p : FamilyRow → Bool} {set : FamilyRow → FamilyRow} {d : Db}
    (hd : d.rows .refreshFamilies = db.rows .refreshFamilies)
    (hset : ∀ f, ∃ now, set f = f.revoke now)
    (hp : ∀ x ∈ db.rows .refreshFamilies, p x = true → RevokedIn P c db r x) :
    ∀ f ∈ (d.update .refreshFamilies p set).rows .refreshFamilies, Accounted P c db r f := by
  intro f hf
  rw [Db.update_rows_self, hd] at hf
  obtain ⟨x, hx, rfl⟩ := List.mem_map.mp hf
  by_cases hpx : p x = true
  · obtain ⟨now, e⟩ := hset x
    rw [if_pos hpx, e]
    exact Or.inr fun _ => (hp x hx hpx).later (FamilyRow.later_revoke x now)
  · rw [if_neg hpx]
    exact Or.inl ⟨x, hx, x.after_refl⟩

theorem accounted_same (hd : db'.rows .refreshFamilies = db.rows .refreshFamilies) :
    ∀ f ∈ db'.rows .refreshFamilies, Accounted P c db r f :=
  fun f hf => Or.inl ⟨f, hd ▸ hf, f.after_refl⟩

/-- An exchange revokes the family of a code that was used. -/
theorem revoked_exchange {raw : String} (hc : c.call.exchangeOf = some raw)
    (h : (program P c).run db = (r, db')) :
    ∀ f ∈ db'.rows .refreshFamilies, Accounted P c db r f := by
  rcases exchange_run hc h with ⟨_, rfl, rfl⟩ | ⟨a, x, hargs, rfl, rfl, hrun⟩
  · exact accounted_same rfl
  rcases exchangeBound_run hrun with ⟨_, rfl, rfl⟩ | ⟨seen, code, session, hp, hend⟩
  · exact accounted_same rfl
  rcases hend with ⟨hconsumed, rfl, rfl⟩ | ⟨_, rfl, rfl⟩
  · refine accounted_update rfl (fun _ => ⟨_, rfl⟩) fun x _ hx => ?_
    exact .code ⟨a, seen, session, hargs, hp, hconsumed⟩ (of_decide_eq_true hx)
  · intro f hf
    unfold exchangedRows at hf
    split at hf
    · rw [Db.insert_rows_ne _ _ (by decide), Db.insert_rows_self,
        Db.update_rows_ne _ _ _ (by decide)] at hf
      rcases List.mem_append.mp hf with hf | hf
      · exact Or.inl ⟨f, hf, f.after_refl⟩
      · -- a new family is live
        rw [List.mem_singleton.mp hf]
        exact Or.inr fun hrevoked => by cases hrevoked
    · rw [Db.update_rows_ne _ _ _ (by decide)] at hf
      exact Or.inl ⟨f, hf, f.after_refl⟩

/-- A rotation revokes the family of a token that was used. -/
theorem revoked_rotate {raw : String} (hc : c.call.rotationOf = some raw)
    (h : (program P c).run db = (r, db')) :
    ∀ f ∈ db'.rows .refreshFamilies, Accounted P c db r f := by
  rcases rotate_run hc h with ⟨_, rfl, rfl⟩ | ⟨a, x, hargs, rfl, rfl, hrun⟩
  · exact accounted_same rfl
  rcases rotateBound_run hrun with ⟨_, rfl, rfl⟩ | ⟨seen, member, family, session, hp, hend⟩
  · exact accounted_same rfl
  rcases hend with ⟨hconsumed, rfl, rfl⟩ | ⟨_, successor, _, rfl, rfl⟩
  · refine accounted_update rfl (fun _ => ⟨_, rfl⟩) fun x _ hx => ?_
    exact .token ⟨a, seen, member, session, hargs, hp, hconsumed⟩
      (hp.family_id.trans (of_decide_eq_true hx).symm)
  · refine accounted_same ?_
    unfold rotatedRows
    rw [Db.update_rows_ne _ _ _ (by decide), Db.insert_rows_ne _ _ (by decide)]

/-- A logout revokes the families of its session. -/
theorem revoked_logout {u : Uuid} {now : Time} {set : FamilyRow → FamilyRow} {d : Db}
    (hc : c.call.logsOut = some u) (hr : r.loggedOut = true)
    (hset : ∀ f, ∃ now, set f = f.revoke now)
    (hd : d.rows .refreshFamilies = db.rows .refreshFamilies) :
    ∀ f ∈ (loggedOutRows u now set d).rows .refreshFamilies, Accounted P c db r f := by
  unfold loggedOutRows
  refine accounted_update ?_ hset fun x _ hx => .session ?_ hr
  · rw [Db.update_rows_ne _ _ _ (by decide)]
    exact hd
  · rw [hc, of_decide_eq_true hx]

/-- **One call revokes a family for a reason.** -/
theorem revoked_step (hgood : (contract P).Good c db) (h : (program P c).run db = (r, db')) :
    ∀ f ∈ db'.rows .refreshFamilies, Accounted P c db r f := by
  obtain ⟨call, t⟩ := c
  have hframe : .refreshFamilies ∉ call.writes → ∀ f ∈ db'.rows .refreshFamilies,
      Accounted P ⟨call, t⟩ db r f := fun hw =>
    accounted_same (by simpa [h] using program_frame (P := P) (c := ⟨call, t⟩) hw db)
  cases call with
  | exchangeCode | exchangeCodeRequest => exact revoked_exchange rfl h
  | rotateRefresh | rotateRefreshRequest => exact revoked_rotate rfl h
  | revokeRefresh raw clientId =>
      obtain ⟨x, hx, rfl⟩ := run_of_map h
      rcases revokeRefresh_run hx with
        ⟨_, rfl, _⟩ | ⟨⟨m, seen⟩, hfound, hclient, ⟨_, rfl⟩ | ⟨_, rfl⟩⟩
      · exact accounted_same rfl
      · exact accounted_same rfl
      · obtain ⟨hm, hhash, hseen, hof⟩ := findMember_mem hfound
        refine accounted_update rfl (fun _ => ⟨_, rfl⟩) fun f hf hx => ?_
        have hid : f.id = m.familyId := of_decide_eq_true hx
        have hsame : seen = f := same_key hgood.inv hseen hf (hof.trans hid.symm)
        have hcall : clientId = f.clientId := hsame ▸ hclient.symm
        exact .client (by rw [hcall]) hm hhash hid.symm
  | logout session =>
      obtain ⟨x, hx, rfl⟩ := run_of_map h
      rcases logout_run hx with ⟨_, rfl⟩ | ⟨s, hs, rfl, rfl⟩
      · exact accounted_same rfl
      · exact revoked_logout rfl rfl (fun _ => ⟨_, rfl⟩) rfl
  | finish session challenge registry =>
      obtain ⟨x, hx, rfl⟩ := run_of_map h
      rcases finish_run hx with ⟨_, rfl⟩ | ⟨s, row, _, rfl, rfl⟩
      · exact accounted_same rfl
      · exact revoked_logout rfl rfl (fun _ => ⟨_, rfl⟩) (Db.update_rows_ne _ _ _ (by decide))
  | finishHint session challenge registry hint =>
      obtain ⟨x, hx, rfl⟩ := run_of_map h
      rcases finishInner_answers hx with ⟨_, rfl, _⟩ | ⟨s, row, _, ⟨_, rfl, _⟩ | ⟨rfl, rfl, _⟩⟩
      · exact accounted_same rfl
      · exact accounted_same rfl
      · exact revoked_logout rfl rfl (fun _ => ⟨_, rfl⟩) (Db.update_rows_ne _ _ _ (by decide))
  | _ => exact hframe (by simp [Call.writes])

/-- **What starts a session**: a login with an identity of the user, which completes the callback
    of a transaction, or an operation that no handler makes. -/
inductive Started (P : Platform) (c : Request) (db db' : Db) (s : SessionRow) : Prop where
  | login {claim : String} {identity : VerifiedGoogleIdentity} {lifetime : Duration}
      {registry : Option ClientRegistry} {row : BrowserRow}
      (hcall : c.call = .completeCallback claim identity lifetime registry)
      (hrow : row ∈ db.rows .browserAuthorizations) (hclaimed : row.claimedBy P claim = true)
      (huser : findIdentity db' googleIssuer identity.subject = some s.userId)
      (htime : s.upstreamAuthTime = identity.upstreamAuthTime) : Started P c db db' s
  | direct (hcall : c.call.area = .nobody) : Started P c db db' s

/-- **A session after a call**: one that was there, one that the call logged out, or a new one. -/
inductive AccountedSession (P : Platform) (c : Request) (db db' : Db) (r : Reply)
    (s : SessionRow) : Prop where
  | kept {x : SessionRow} (hx : x ∈ db.rows .providerSessions) (hl : x.Later s)
      (hrevoked : s.revokedAt.isSome = true → x.revokedAt.isSome = true) :
      AccountedSession P c db db' r s
  | loggedOut {x : SessionRow} (hx : x ∈ db.rows .providerSessions) (hl : x.Later s)
      (hcall : c.call.logsOut = some s.id) (hr : r.loggedOut = true) :
      AccountedSession P c db db' r s
  | started (hlive : s.revokedAt = none) (hs : Started P c db db' s) :
      AccountedSession P c db db' r s

theorem accountedSession_same
    (hd : db'.rows .providerSessions = db.rows .providerSessions) :
    ∀ s ∈ db'.rows .providerSessions, AccountedSession P c db db' r s :=
  fun _ hs => .kept (hd ▸ hs) ⟨rfl, .refl _⟩ fun h => h

/-- A new session is live. -/
theorem accountedSession_insert {n : SessionRow} (hlive : n.revokedAt = none)
    (hstarted : Started P c db db' n)
    (hd : db'.rows .providerSessions = db.rows .providerSessions ++ [n]) :
    ∀ s ∈ db'.rows .providerSessions, AccountedSession P c db db' r s := by
  intro s hs
  rw [hd] at hs
  rcases List.mem_append.mp hs with hs | hs
  · exact .kept hs ⟨rfl, .refl _⟩ fun h => h
  · rw [List.mem_singleton.mp hs]
    exact .started hlive hstarted

theorem accountedSession_logout {u : Uuid} {now : Time} {set : FamilyRow → FamilyRow} {d : Db}
    (hc : c.call.logsOut = some u) (hr : r.loggedOut = true)
    (hd : d.rows .providerSessions = db.rows .providerSessions) :
    ∀ s ∈ (loggedOutRows u now set d).rows .providerSessions,
      AccountedSession P c db (loggedOutRows u now set d) r s := by
  intro s hs
  unfold loggedOutRows at hs
  rw [Db.update_rows_ne _ _ _ (by decide), Db.update_rows_self, hd] at hs
  obtain ⟨x, hx, rfl⟩ := List.mem_map.mp hs
  by_cases hid : x.id = u
  · rw [if_pos (decide_eq_true hid)]
    exact .loggedOut hx ⟨rfl, .coalesce _ _⟩ (by rw [hc, ← hid]; rfl) hr
  · rw [if_neg (by rw [decide_eq_true_eq]; exact hid)]
    exact .kept hx ⟨rfl, .refl _⟩ fun h => h

/-- **One call starts a session by a login, and revokes one by a logout.** -/
theorem session_step (h : (program P c).run db = (r, db')) :
    ∀ s ∈ db'.rows .providerSessions, AccountedSession P c db db' r s := by
  obtain ⟨call, t⟩ := c
  have hframe : .providerSessions ∉ call.writes → ∀ s ∈ db'.rows .providerSessions,
      AccountedSession P ⟨call, t⟩ db db' r s := fun hw =>
    accountedSession_same (by simpa [h] using program_frame (P := P) (c := ⟨call, t⟩) hw db)
  cases call with
  | createProviderSession user lifetime =>
      obtain ⟨x, hx, rfl⟩ := run_of_map h
      rcases createProviderSession_run hx with ⟨_, _, rfl⟩ | ⟨seconds, _, _, rfl⟩
      · exact accountedSession_same rfl
      · exact accountedSession_insert rfl (.direct rfl) (Db.insert_rows_self ..)
  | completeCallback claim identity lifetime registry =>
      obtain ⟨x, hx, rfl⟩ := run_of_map h
      rcases completeCallback_run hx with ⟨_, rfl⟩ | ⟨row, hrow, _, ⟨_, _, rfl⟩ | ⟨n, _, _, _, rfl⟩⟩
      · exact accountedSession_same rfl
      · exact accountedSession_same (Db.update_rows_ne _ _ _ (by decide))
      · refine accountedSession_insert (n := loginSession P t identity n
          (identified t identity (t.now 0) db).1) rfl
          (.login rfl (List.mem_of_find?_eq_some hrow) (List.find?_some hrow :) ?_ rfl) ?_
        · have hsame : SameRows identityTables (identified t identity (t.now 0) db).2
              (loggedInRows P t identity n row db) := sameRows_loggedIn
          rw [findIdentity_same hsame]
          exact findIdentity_identified
        · unfold loggedInRows
          rw [Db.update_rows_ne _ _ _ (by decide), Db.insert_rows_self,
            identified_rows (by simp)]
  | logout session =>
      obtain ⟨x, hx, rfl⟩ := run_of_map h
      rcases logout_run hx with ⟨_, rfl⟩ | ⟨s, hs, rfl, rfl⟩
      · exact accountedSession_same rfl
      · exact accountedSession_logout rfl rfl rfl
  | finish session challenge registry =>
      obtain ⟨x, hx, rfl⟩ := run_of_map h
      rcases finish_run hx with ⟨_, rfl⟩ | ⟨s, row, _, rfl, rfl⟩
      · exact accountedSession_same rfl
      · exact accountedSession_logout rfl rfl (Db.update_rows_ne _ _ _ (by decide))
  | finishHint session challenge registry hint =>
      obtain ⟨x, hx, rfl⟩ := run_of_map h
      rcases finishInner_answers hx with ⟨_, rfl, _⟩ | ⟨s, row, _, ⟨_, rfl, _⟩ | ⟨rfl, rfl, _⟩⟩
      · exact accountedSession_same rfl
      · exact accountedSession_same rfl
      · exact accountedSession_logout rfl rfl (Db.update_rows_ne _ _ _ (by decide))
  | _ => exact hframe (by simp [Call.writes])

/-! ## 2. Runs -/

/-- **Every revoked family was revoked by a call, for a reason.** -/
theorem revoked_origin (h : Reachable P M) : ∀ f ∈ M.db.rows .refreshFamilies,
    (FamilyRow.revokedAt f).isSome = true →
      ∃ e ∈ M.log, RevokedIn P e.call e.before e.reply f := by
  intro f hf hrevoked
  obtain ⟨e, he, hG⟩ := reachable_origin (S := schema) (t := Table.refreshFamilies)
    (G := fun e f => (FamilyRow.revokedAt f).isSome = true →
      RevokedIn P e.call e.before e.reply f) FamilyRow.After (lawful P) rfl
    (fun e x f hG hl hrevoked => (hG (hl.2 hrevoked)).later hl.1)
    (fun e hgood hrun => revoked_step hgood hrun) h f hf
  exact ⟨e, he, hG hrevoked⟩

/-- **Every revoked session was logged out by a call.** -/
theorem loggedOut_origin (h : Reachable P M) : ∀ s ∈ M.db.rows .providerSessions,
    (SessionRow.revokedAt s).isSome = true →
      ∃ e ∈ M.log, e.call.call.logsOut = some (SessionRow.id s) ∧ e.reply.loggedOut = true := by
  intro s hs hrevoked
  obtain ⟨e, he, hG⟩ := reachable_origin (S := schema) (t := Table.providerSessions)
    (G := fun (e : Entry) s => (SessionRow.revokedAt s).isSome = true →
      e.call.call.logsOut = some (SessionRow.id s) ∧ e.reply.loggedOut = true)
    (fun x s => SessionRow.Later x s ∧
      ((SessionRow.revokedAt s).isSome = true → (SessionRow.revokedAt x).isSome = true))
    (lawful P) rfl
    (fun e x s hG hl hrevoked => by
      obtain ⟨hc, hr⟩ := hG (hl.2 hrevoked)
      refine ⟨?_, hr⟩
      rw [hl.1.keeps]
      exact hc)
    (fun e _ hrun s hs => by
      cases session_step hrun s hs with
      | kept hx hl hrevoked => exact Or.inl ⟨_, hx, hl, hrevoked⟩
      | loggedOut hx hl hcall hr => exact Or.inr fun _ => ⟨hcall, hr⟩
      | started hlive hs =>
          refine Or.inr fun hrevoked => ?_
          rw [hlive] at hrevoked
          cases hrevoked) h s hs
  exact ⟨e, he, hG hrevoked⟩

/-- **Every session was started by a call.** -/
theorem started_origin (h : Reachable P M) : ∀ s ∈ M.db.rows .providerSessions,
    ∃ e ∈ M.log, Started P e.call e.before e.after s := by
  refine reachable_origin (S := schema) (t := Table.providerSessions)
    (G := fun (e : Entry) s => Started P e.call e.before e.after s) SessionRow.Later (lawful P) rfl
    (fun e x s hG hl => ?_) (fun e _ hrun s hs => ?_) h
  · cases hG with
    | login hcall hrow hclaimed huser htime =>
        refine .login hcall hrow hclaimed ?_ ?_
        · rw [hl.keeps]
          exact huser
        · rw [hl.keeps]
          exact htime
    | direct hcall => exact .direct hcall
  · cases session_step hrun s hs with
    | kept hx hl _ => exact Or.inl ⟨_, hx, hl⟩
    | loggedOut hx hl _ _ => exact Or.inl ⟨_, hx, hl⟩
    | started _ hs => exact Or.inr hs

namespace Web

variable {C : HttpCrates} {K : KeyCrates} {keys : SigningKeys K} {W : Site} {p : Provider}

/-! ## 3. The requests behind them -/

/-- No handler logs a session out without a challenge. -/
theorem Endpoint.MayCall.challenged {endpoint : Endpoint} {h : Record} {call : Call} {u : Uuid}
    (hmay : endpoint.MayCall C keys p h call) (hc : call.logsOut = some u) :
    ∃ session challenge registry hint,
      call.answers = some (session, challenge, registry, hint) ∧ session.id = u := by
  cases call with
  | finish | finishHint =>
      cases hc
      exact ⟨_, _, _, _, rfl, rfl⟩
  | logout session =>
      rcases hmay.area with harea | harea
      · cases endpoint with
        | preflight headers => exact hmay.elim
        | _ => cases harea
      · cases harea
  | _ => cases hc

/-- **A logout request with the cookie of the session** logged it out. -/
def LoggedOutBy (C : HttpCrates) {K : KeyCrates} (keys : SigningKeys K) (W : Site) (id : Uuid) :
    Prop :=
  ∃ w ∈ W.workers, ∃ p now req outcome, w.task = (p, .logout now req) ∧
    LeftFor C keys W p now req w.record id outcome

theorem loggedOutBy_entry (h : Running C keys W) {e : Entry} (he : e ∈ W.store.log) {u : Uuid}
    (hc : e.call.call.logsOut = some u) (hr : e.reply.loggedOut = true) :
    LoggedOutBy C keys W u := by
  obtain ⟨_, _, _, past, _, hmay⟩ := h.owner he
  obtain ⟨session, challenge, registry, hint, hanswers, rfl⟩ := hmay.challenged hc
  have hout : ∃ outcome, e.reply.outcome = some outcome := by
    obtain ⟨_, hrun⟩ := reachable_entry (lawful C.toPlatform) h.reachable he
    generalize e.reply = r at hr hrun
    generalize e.call = c at hanswers hrun
    obtain ⟨call, t⟩ := c
    cases call with
    | finish session challenge registry =>
        obtain ⟨x, hx, rfl⟩ := run_of_map hrun
        cases x with
        | ok outcome => exact ⟨outcome, rfl⟩
        | error e => cases hr
    | finishHint session challenge registry hint =>
        obtain ⟨x, hx, rfl⟩ := run_of_map hrun
        match x, hr with
        | .ok (some outcome), _ => exact ⟨outcome, rfl⟩
    | _ => cases hanswers
  obtain ⟨outcome, ho⟩ := hout
  obtain ⟨w, hw, p, now, req, htask, _, hleft⟩ := left_for h he hanswers ho
  exact ⟨w, hw, p, now, req, outcome, htask, hleft⟩

/-- **Who revokes a family**, besides a logout of its session: its client, with one of its tokens
    at the revocation endpoint; or who presents its used code, or one of its used tokens, at the
    token endpoint. -/
inductive RevokedBy (C : HttpCrates) (W : Site) (f : FamilyRow) : Prop where
  | client {w : Visit} {p : Provider} {headers : HeaderMap} {body : List UInt8} {raw : String}
      {m : MemberRow} (hw : w ∈ W.workers) (htask : w.task = (p, .revoke headers body))
      (hread : readRevoke C p headers body = .ok (f.clientId, raw))
      (hm : m ∈ W.store.db.rows .refreshTokenMembers)
      (hhash : m.tokenHash = secretHash C.toPlatform raw) (hof : m.familyId = f.id) :
      RevokedBy C W f
  | code {w : Visit} {p : Provider} {now : Nat} {jti : Uuid} {headers : HeaderMap}
      {body : List UInt8} {q : List (String × String)} {a : TokenParams} {raw : String} {e : Entry}
      {code : AuthorizationCodeRow} (hw : w ∈ W.workers)
      (htask : w.task = (p, .token now jti headers body))
      (hread : readToken C p headers body = .ok (q, a)) (hraw : one q "code" = some raw)
      (he : e ∈ W.store.log) (hcalled : .called e.thread e.call.call ∈ w.record)
      (hhash : code.codeHash = secretHash C.toPlatform raw)
      (hused : PresentsUsedCode C.toPlatform e.call e.before code)
      (hof : f.sourceCodeId = code.id) : RevokedBy C W f
  | token {w : Visit} {p : Provider} {now : Nat} {jti : Uuid} {headers : HeaderMap}
      {body : List UInt8} {q : List (String × String)} {a : TokenParams} {raw : String} {e : Entry}
      {m : MemberRow} {family : FamilyRow} (hw : w ∈ W.workers)
      (htask : w.task = (p, .token now jti headers body))
      (hread : readToken C p headers body = .ok (q, a)) (hraw : one q "refresh_token" = some raw)
      (he : e ∈ W.store.log) (hcalled : .called e.thread e.call.call ∈ w.record)
      (hm : m ∈ e.before.rows .refreshTokenMembers)
      (hhash : m.tokenHash = secretHash C.toPlatform raw) (hmember : m.familyId = f.id)
      (hconsumed : m.consumedAt.isSome = true)
      (hused : PresentsUsedToken C.toPlatform e.call e.before family) (hof : family.id = f.id) :
      RevokedBy C W f

theorem exchanges_raw {P : Platform} {c : Request} {db : Db} {a : ExchangeArgs}
    (h : c.Exchanges P db a) : c.call.exchangeOf = some a.raw := by
  obtain ⟨call, t⟩ := c
  cases call with
  | exchangeCode =>
      obtain rfl := h
      rfl
  | exchangeCodeRequest =>
      obtain ⟨_, _, _, _, _, rfl⟩ := h
      rfl
  | _ => exact h.elim

theorem rotates_raw {P : Platform} {c : Request} {db : Db} {a : RotateArgs}
    (h : c.Rotates P db a) : c.call.rotationOf = some a.raw := by
  obtain ⟨call, t⟩ := c
  cases call with
  | rotateRefresh =>
      obtain rfl := h
      rfl
  | rotateRefreshRequest =>
      obtain ⟨_, _, _, _, _, _, rfl⟩ := h
      rfl
  | _ => exact h.elim

/-- The credential that a request of the token endpoint presents. -/
theorem grantCall_presents {q : List (String × String)} {a : TokenParams} {R : ClientRegistry}
    {call : Call} {initial : Bool} (h : grantCall q a R = .ok (call, initial)) {raw : String} :
    (call.exchangeOf = some raw → one q "code" = some raw) ∧
    (call.rotationOf = some raw → one q "refresh_token" = some raw) := by
  unfold grantCall at h
  split at h
  · split at h
    · rename_i code redirect verifier hcode _ _
      cases h
      exact ⟨fun e => hcode.trans e, nofun⟩
    · cases h
  split at h
  · split at h
    · rename_i refresh hrefresh
      cases h
      exact ⟨nofun, fun e => hrefresh.trans e⟩
    · cases h
  · cases h

theorem presents_area {c : Call} {raw : String}
    (hc : c.exchangeOf = some raw ∨ c.rotationOf = some raw) :
    c.area = .token ∨ c.area = .nobody := by
  cases c <;> first | exact Or.inl rfl | exact Or.inr rfl | rcases hc with hc | hc <;> cases hc

/-- **A credential is presented at the token endpoint.** -/
theorem Running.token_owner (h : Running C keys W) {e : Entry} (he : e ∈ W.store.log) {raw : String}
    (hc : e.call.call.exchangeOf = some raw ∨ e.call.call.rotationOf = some raw) :
    ∃ w ∈ W.workers, ∃ p now jti headers body q a past R initial,
      w.task = (p, .token now jti headers body) ∧
      .called e.thread e.call.call ∈ w.record ∧ past <+: w.record ∧
      readToken C p headers body = .ok (q, a) ∧ Resolved past a.client R ∧
      grantCall q a R = .ok (e.call.call, initial) := by
  obtain ⟨w, hw, p, endpoint, past, htask, hcalled, hpast, hmay, harea⟩ := h.owner_of he (by
    rcases presents_area hc with hof | hof <;> rw [hof] <;> exact nofun)
  cases endpoint with
  | token now jti headers body =>
      obtain ⟨q, a, R, initial, hread, hR, hcall⟩ := hmay
      exact ⟨w, hw, p, now, jti, headers, body, q, a, past, R, initial, htask, hcalled, hpast,
        hread, hR, hcall⟩
  | preflight headers => exact hmay.elim
  | _ => rcases presents_area hc with hof | hof <;> cases hof.symm.trans harea

/-- The token of a family is a row of it for ever. -/
theorem member_later {P : Platform} {M : Machine schema Request Reply} (h : Reachable P M)
    {e : Entry} (he : e ∈ M.log) {m : MemberRow} (hm : m ∈ e.before.rows .refreshTokenMembers) :
    ∃ m' ∈ M.db.rows .refreshTokenMembers, MemberRow.tokenHash m' = m.tokenHash ∧
      MemberRow.familyId m' = m.familyId := by
  obtain ⟨m', hm', hl⟩ := entry_progress h he .refreshTokenMembers m hm
  have hkeeps := MemberRow.Later.keeps hl
  exact ⟨m', hm', by rw [hkeeps], by rw [hkeeps]⟩

/-- **Nobody else revokes.** A session is revoked only by a logout request with its own cookie,
    which answered a challenge as it may; a refresh family only with its session, by its client
    with one of its tokens, or by who presents its used code with its verifier, or a used token of
    it, at the token endpoint. -/
theorem revocations_owed (h : Running C keys W) :
    (∀ s ∈ W.store.db.rows .providerSessions, (SessionRow.revokedAt s).isSome = true →
      LoggedOutBy C keys W (SessionRow.id s)) ∧
    ∀ f ∈ W.store.db.rows .refreshFamilies, (FamilyRow.revokedAt f).isSome = true →
      LoggedOutBy C keys W (FamilyRow.sessionId f) ∨ RevokedBy C W f := by
  refine ⟨fun s hs hrevoked => ?_, fun f hf hrevoked => ?_⟩
  · obtain ⟨e, he, hc, hr⟩ := loggedOut_origin h.reachable s hs hrevoked
    exact loggedOutBy_entry h he hc hr
  obtain ⟨e, he, hcause⟩ := revoked_origin h.reachable f hf hrevoked
  have hI := (reachable_entry (lawful C.toPlatform) h.reachable he).1.inv
  cases hcause with
  | session hcall hr => exact Or.inl (loggedOutBy_entry h he hcall hr)
  | @client raw m hcall hm hhash hof =>
      obtain ⟨w, hw, p, endpoint, past, htask, hcalled, _, hmay, harea⟩ :=
        h.owner_of he (by rw [hcall]; exact nofun)
      rw [hcall] at harea hmay
      cases endpoint with
      | revoke headers body =>
          obtain ⟨client, value, hread, hsame⟩ := hmay
          cases hsame
          obtain ⟨m', hm', hhash', hof'⟩ := member_later h.reachable he hm
          exact Or.inr (.client hw htask hread hm' (hhash'.trans hhash) (hof'.trans hof))
      | _ => cases harea
  | @code code hused hof =>
      obtain ⟨args, seen, session, hargs, hp, hconsumed⟩ := hused
      have hraw := exchanges_raw hargs
      obtain ⟨w, hw, p, now, jti, headers, body, q, a, past, R, initial, htask, hcalled, _, hread,
        _, hcall⟩ := h.token_owner he (Or.inl hraw)
      exact Or.inr (.code hw htask hread ((grantCall_presents hcall).1 hraw) he hcalled
        (hp.row hI).2.hash ⟨args, seen, session, hargs, hp, hconsumed⟩ hof)
  | @token family hused hof =>
      obtain ⟨args, seen, member, session, hargs, hp, hconsumed⟩ := hused
      have hraw := rotates_raw hargs
      obtain ⟨w, hw, p, now, jti, headers, body, q, a, past, R, initial, htask, hcalled, _, hread,
        _, hcall⟩ := h.token_owner he (Or.inr hraw)
      have hshown := (hp.rows hI).2
      exact Or.inr (.token hw htask hread ((grantCall_presents hcall).2 hraw) he hcalled
        hshown.stored hshown.hash (hshown.ofGrant.symm.trans hof) hconsumed
        ⟨args, seen, member, session, hargs, hp, hconsumed⟩ hof)

/-- The session and the family of the run end for one of these reasons. -/
theorem revocations_owed_site :
    (∃ s ∈ Sample.site.store.db.rows .providerSessions,
      LoggedOutBy Sample.siteCrates Sample.siteKeys Sample.site (SessionRow.id s)) ∧
    ∃ f ∈ Sample.site.store.db.rows .refreshFamilies,
      LoggedOutBy Sample.siteCrates Sample.siteKeys Sample.site (FamilyRow.sessionId f) ∨
        RevokedBy Sample.siteCrates Sample.site f := by
  obtain ⟨hsessions, hfamilies⟩ := revocations_owed Sample.site_runs
  obtain ⟨_, _, hrevoked, hout, _⟩ := Sample.site_run
  have hhead : ∀ {t : Table} {g : Row t → Bool} {l : List (Row t)}, l.map g = [true] →
      ∃ r ∈ l, g r = true := by
    intro t g l hl
    obtain ⟨r, _, rfl, hr, -⟩ := List.map_eq_cons_iff.mp hl
    exact ⟨r, List.mem_cons_self, hr⟩
  obtain ⟨s, hs, hsrevoked⟩ := hhead (t := .providerSessions) hout
  obtain ⟨f, hf, hfrevoked⟩ := hhead (t := .refreshFamilies) hrevoked
  exact ⟨⟨s, hs, hsessions s hs hsrevoked⟩, f, hf, hfamilies f hf hfrevoked⟩

end Web

end Eri
