/-
  File:      Eri/Provenance.lean
  Subject:   Where the tokens of the token endpoint come from (src/web.rs, token, authorize,
             consent_post and callback), in every run of the application.

  * `redeemed_origin`, `granted_code` -- tokens go back to a code that was redeemed;
  * `RedeemedAt`, `AskedWith`, `ApprovedBy`, `LoggedInAs` -- the requests behind a code;
  * `redeemed_at`, `asked_with`, `logged_in` -- each of them was made;
  * **`tokens_owed`**.
-/
import Eri.Atomicity
import Eri.Causes
import Eri.Consent

namespace Eri

open Sql

variable {P : Platform} {M : Machine schema Request Reply} {db db' : Db} {c : Request} {r : Reply}

/-! ## 1. Redeemed codes -/

/-- A grant names the client of the call. -/
theorem granted_client {x : ExchangeResult} (h : (program P c).run db = (r, db'))
    (hx : r.granted = some x) {raw : String}
    (hc : c.call.exchangeOf = some raw ∨ c.call.rotationOf = some raw) :
    c.call.clientOf = some x.clientId := by
  rcases hc with hc | hc
  · rcases exchange_run hc h with ⟨_, rfl, _⟩ | ⟨a, y, hargs, _, rfl, hrun⟩
    · cases hx
    rcases exchangeBound_run hrun with ⟨_, rfl, _⟩ | ⟨seen, code, session, hp, hend⟩
    · cases hx
    rcases hend with ⟨_, rfl, _⟩ | ⟨_, rfl, _⟩
    · cases hx
    · cases hx
      exact hargs.client.trans (congrArg some hp.stillMatching.client.symm)
  · rcases rotate_run hc h with ⟨_, rfl, _⟩ | ⟨a, y, hargs, _, rfl, hrun⟩
    · cases hx
    rcases rotateBound_run hrun with ⟨_, rfl, _⟩ | ⟨seen, member, family, session, hp, hend⟩
    · cases hx
    rcases hend with ⟨_, rfl, _⟩ | ⟨_, successor, _, rfl, _⟩
    · cases hx
    · cases hx
      exact hargs.client.trans (congrArg some hp.client.symm)

/-- A code that was unused before, if it is. -/
def AuthorizationCodeRow.After (x y : AuthorizationCodeRow) : Prop :=
  x.Later y ∧ (y.consumedAt.isSome = true → x.consumedAt.isSome = true)

/-- **A code is used by an exchange that is granted.** -/
theorem redeemed_step (hgood : (contract P).Good c db) (h : (program P c).run db = (r, db')) :
    ∀ code ∈ db'.rows .authorizationCodes,
      (∃ x ∈ db.rows .authorizationCodes, AuthorizationCodeRow.After x code) ∨
      ((AuthorizationCodeRow.consumedAt code).isSome = true →
        ∃ raw, c.call.exchangeOf = some raw ∧ r.granted.isSome = true ∧
          AuthorizationCodeRow.codeHash code = secretHash P raw) := by
  have hchange := credentialChange hgood h
  have hkept : ∀ code ∈ db.rows .authorizationCodes,
      ∃ x ∈ db.rows .authorizationCodes, AuthorizationCodeRow.After x code :=
    fun code hcode => ⟨code, hcode, ⟨rfl, .refl _⟩, fun h => h⟩
  intro code hcode
  have hsame : db'.rows .authorizationCodes = db.rows .authorizationCodes →
      ∃ x ∈ db.rows .authorizationCodes, AuthorizationCodeRow.After x code :=
    fun e => hkept code (e ▸ hcode)
  cases hchange with
  | same _ hrows => exact Or.inl (hsame (hrows _ (by simp)))
  | login _ s _ _ hrows => exact Or.inl (hsame (hrows _ (by simp)))
  | issue _ new hlive hrows _ =>
      rw [hrows] at hcode
      rcases List.mem_append.mp hcode with hcode | hcode
      · exact Or.inl (hkept code hcode)
      · rw [List.mem_singleton.mp hcode, hlive]
        exact Or.inr nofun
  | exchange raw hc stored session hshown hredeem =>
      have hrows : (exchangedRows P c.tape stored session db).rows .authorizationCodes =
          (db.update .authorizationCodes (fun c => c.id = stored.id) (.consume (c.tape.now 0))).rows
            .authorizationCodes := by
        unfold exchangedRows
        split
        · rw [Db.insert_rows_ne _ _ (by decide), Db.insert_rows_ne _ _ (by decide)]
        · rfl
      rw [hrows, Db.update_rows_self] at hcode
      obtain ⟨x, hx, rfl⟩ := List.mem_map.mp hcode
      split
      · rename_i hid
        obtain rfl : x = stored :=
          same_key hgood.inv hx hshown.stored (of_decide_eq_true hid)
        exact Or.inr fun _ => ⟨raw, hc, rfl, hshown.hash⟩
      · exact Or.inl (hkept x hx)
  | replayCode => exact Or.inl (hsame (Db.update_rows_ne _ _ _ (by decide)))
  | rotate =>
      refine Or.inl (hsame ?_)
      unfold rotatedRows
      rw [Db.update_rows_ne _ _ _ (by decide), Db.insert_rows_ne _ _ (by decide)]
  | revoke => exact Or.inl (hsame (Db.update_rows_ne _ _ _ (by decide)))
  | logout _ _ _ _ _ _ _ _ hrows => exact Or.inl (hsame (hrows _ (by simp)))

/-- **Every used code was exchanged.** -/
theorem redeemed_origin (h : Reachable P M) : ∀ code ∈ M.db.rows .authorizationCodes,
    (AuthorizationCodeRow.consumedAt code).isSome = true →
      ∃ e ∈ M.log, ∃ raw, e.call.call.exchangeOf = some raw ∧ e.reply.granted.isSome = true ∧
        AuthorizationCodeRow.codeHash code = secretHash P raw := by
  intro code hcode hused
  obtain ⟨e, he, hG⟩ := reachable_origin (S := schema) (t := Table.authorizationCodes)
    (G := fun (e : Entry) code => (AuthorizationCodeRow.consumedAt code).isSome = true →
      ∃ raw, e.call.call.exchangeOf = some raw ∧ e.reply.granted.isSome = true ∧
        AuthorizationCodeRow.codeHash code = secretHash P raw)
    AuthorizationCodeRow.After (lawful P) rfl
    (fun e x code hG hl hused => by
      obtain ⟨raw, hc, hgranted, hhash⟩ := hG (hl.2 hused)
      refine ⟨raw, hc, hgranted, ?_⟩
      rw [hl.1.keeps]
      exact hhash)
    (fun e hgood hrun => redeemed_step hgood hrun) h code hcode
  exact ⟨e, he, hG hused⟩

/-- **A grant goes back to a code that was used.** -/
theorem granted_code {e : Entry} {x : ExchangeResult} (h : Reachable P M) (he : e ∈ M.log)
    (hx : e.reply.granted = some x) :
    ∃ code ∈ M.db.rows .authorizationCodes, ∃ s ∈ M.db.rows .providerSessions,
      x.Of (AuthorizationCodeRow.toCodeRow code) s ∧
      (AuthorizationCodeRow.consumedAt code).isSome = true := by
  obtain ⟨code, hcode, s, hs, hof, hpresents, _⟩ := granted_of h he hx
  have hI := reachable_integrity h
  refine ⟨code, hcode, s, hs, hof, ?_⟩
  rcases (entry_change h he).granted_call hx with ⟨raw, hc⟩ | ⟨raw, hc⟩
  · obtain ⟨stored, session, _, hshown, _, _, hafter⟩ :=
      exchanged_entry h he ⟨hc, by rw [hx]; rfl⟩
    have hused : CodeUsed M.db (secretHash P raw) := by
      refine kept_after (lawful P) (codeUsed_kept _) h he ?_
      rw [hafter, ← hshown.hash]
      exact codeUsed_exchanged hshown.stored
    obtain ⟨code', hcode', hhash, hconsumed⟩ := hused
    rwa [same_codeHash hI hcode hcode' ((hpresents.1 raw hc).trans hhash.symm)]
  · obtain ⟨_, _, f, hf, _, _, hsource⟩ := hpresents.2 raw hc
    obtain ⟨code', hcode', hdescends, hconsumed, _⟩ := (hI.ok .refreshFamilies f hf).code
    have hsame : code = code' :=
      same_key hI hcode hcode' (hsource.symm.trans hdescends.source)
    rwa [hsame]

namespace Web

variable {C : HttpCrates} {K : KeyCrates} {keys : SigningKeys K} {W : Site} {p : Provider}

/-! ## 2. The requests behind a grant -/

/-- **A code was redeemed** at the token endpoint by its client, with its secret, its redirect URI
    and the verifier of its challenge. -/
inductive RedeemedAt (C : HttpCrates) (W : Site) (code : AuthorizationCodeRow) : Prop where
  | exchange {w : Visit} {p : Provider} {now : Nat} {jti : Uuid} {headers : HeaderMap}
      {body : List UInt8} {q : List (String × String)} {a : TokenParams} {raw verifier : String}
      (hw : w ∈ W.workers) (htask : w.task = (p, .token now jti headers body))
      (hread : readToken C p headers body = .ok (q, a)) (hclient : a.client = code.clientId)
      (hcode : one q "code" = some raw) (hhash : code.codeHash = secretHash C.toPlatform raw)
      (hredirect : one q "redirect_uri" = some code.redirectUri)
      (hverifier : one q "code_verifier" = some verifier)
      (hchallenge : verifyS256 C.toPlatform verifier code.codeChallenge = true) :
      RedeemedAt C W code

/-- **A code was asked for** by an authorization request of a browser, which its client's policy
    accepted: the code has the client, the redirect URI, the challenge, the nonce and the scopes
    of the request, and the resource that was accepted for it. -/
structure AskedWith (C : HttpCrates) (W : Site) (code : CodeRow) (row : BrowserRow)
    (a : AuthorizeParams) (R : ClientRegistry) (pending : PendingAuthorizationGrant) : Prop where
  request : ∃ w ∈ W.workers, ∃ p req, w.task = (p, .browser req) ∧ Asked C req a ∧
    Resolved w.record a.client R
  accepted : ∃ now, R.validatePending C.toPlatform now a.request = .ok pending
  stored : row ∈ W.store.db.rows .browserAuthorizations
  client : code.clientId = a.client
  redirect : code.redirectUri = a.redirect
  challenge : code.codeChallenge = a.challenge
  nonce : code.oidcNonce = a.nonce
  scopes : code.scopes = inOrder a.scopes
  resource : code.resource = pending.resource

/-- **A code was approved** for the session it is of: by a form with the secret of the transaction
    that came back with the session's cookie, or because the request did not ask for the form and
    its policy needs none. -/
inductive ApprovedBy (C : HttpCrates) (W : Site) (code : CodeRow) (row : BrowserRow)
    (a : AuthorizeParams) (R : ClientRegistry) (pending : PendingAuthorizationGrant) : Prop where
  | form {w : Visit} {p : Provider} {req : HttpRequest} {handle : ConsentHandle} {e : Entry}
      {found : BrowserRow} (hw : w ∈ W.workers) (htask : w.task = (p, .browser req))
      (happroves : Approves C req handle) (hid : row.id = handle.transactionId)
      (he : e ∈ W.store.log) (hcalled : .called e.thread e.call.call ∈ w.record)
      (hfound : found ∈ e.before.rows .browserAuthorizations) (hsame : found.id = row.id)
      (hcsrf : found.csrfHash = some (secretHash C.toPlatform handle.csrf))
      (hcookie : HasCookie C.toPlatform p req.headers W.store.db code.sessionId) :
      ApprovedBy C W code row a R pending
  | policy (hprompt : a.prompt ≠ some "consent") (hpolicy : PreAuthorized R pending) :
      ApprovedBy C W code row a R pending

/-- **The user of a session logged in**: Google vouched, in a request to the callback, for the
    identity that is the user's. -/
inductive LoggedInAs (W : Site) (s : SessionRow) : Prop where
  | google {w : Visit} {p : Provider} {req : HttpRequest} {claim : String}
      {identity : VerifiedGoogleIdentity}
      (hw : w ∈ W.workers) (htask : w.task = (p, .browser req))
      (hvouched : Vouched p req.headers w.record claim identity)
      (huser : findIdentity W.store.db googleIssuer identity.subject = some s.userId)
      (htime : s.upstreamAuthTime = identity.upstreamAuthTime) : LoggedInAs W s

/-- The call of a code is one request's. -/
theorem grantCall_exchange {q : List (String × String)} {a : TokenParams} {R : ClientRegistry}
    {call : Call} {initial : Bool} (h : grantCall q a R = .ok (call, initial)) {raw : String}
    (hc : call.exchangeOf = some raw) : ∃ redirect verifier, one q "code" = some raw ∧
      one q "redirect_uri" = some redirect ∧ one q "code_verifier" = some verifier ∧
      call = .exchangeCodeRequest raw a.client redirect a.resource verifier a.scopes R := by
  unfold grantCall at h
  split at h
  · split at h
    · rename_i code redirect verifier hcode hredirect hverifier
      cases h
      obtain rfl : code = raw := Option.some.inj hc
      exact ⟨redirect, verifier, hcode, hredirect, hverifier, rfl⟩
    · cases h
  split at h
  · split at h
    · cases h
      cases hc
    · cases h
  · cases h

theorem grantCall_client {q : List (String × String)} {a : TokenParams} {R : ClientRegistry}
    {call : Call} {initial : Bool} (h : grantCall q a R = .ok (call, initial)) :
    call.clientOf = some a.client := by
  unfold grantCall at h
  split at h
  · split at h
    · cases h
      rfl
    · cases h
  split at h
  · split at h
    · cases h
      rfl
    · cases h
  · cases h

/-- **Every used code was redeemed.** -/
theorem redeemed_at (h : Running C keys W) {code : AuthorizationCodeRow}
    (hcode : code ∈ W.store.db.rows .authorizationCodes) (hused : code.consumedAt.isSome = true) :
    RedeemedAt C W code := by
  obtain ⟨e, he, raw, hc, hgranted, hhash⟩ := redeemed_origin h.reachable code hcode hused
  obtain ⟨w, hw, p, now, jti, headers, body, q, a, past, R, initial, htask, _, _, hread, _,
    hcall⟩ := h.token_owner he (Or.inl hc)
  obtain ⟨redirect, verifier, hraw, hredirect, hverifier, hsame⟩ := grantCall_exchange hcall hc
  obtain ⟨hgood, hrun⟩ := reachable_entry (lawful C.toPlatform) h.reachable he
  rcases exchange_run hc hrun with ⟨_, hr, _⟩ | ⟨args, x, hargs, hargsRaw, hr, hbound⟩
  · rw [hr] at hgranted
    cases hgranted
  rcases exchangeBound_run hbound with ⟨_, rfl, _⟩ | ⟨seen, stored, session, hp, _⟩
  · rw [hr] at hgranted
    cases hgranted
  -- what was presented is what the request says
  have hargs' : args.clientId = a.client ∧ args.redirectUri = redirect ∧
      args.verifier = verifier := by
    have hexchanges := hargs
    generalize e.call = c at hexchanges hsame
    obtain ⟨call, t⟩ := c
    cases hsame
    obtain ⟨_, _, _, _, _, rfl⟩ := hexchanges
    exact ⟨rfl, rfl, rfl⟩
  obtain ⟨hargsClient, hargsRedirect, hargsVerifier⟩ := hargs'
  have hshown := (hp.row hgood.inv).2
  obtain ⟨later, hlater, hl⟩ := entry_progress h.reachable he .authorizationCodes stored
    hshown.stored
  have hkeeps := AuthorizationCodeRow.Later.keeps hl
  obtain rfl : later = code := by
    refine same_codeHash (reachable_integrity h.reachable) hlater hcode ?_
    rw [hkeeps, hhash, ← hargsRaw]
    exact hshown.hash
  refine .exchange hw htask hread ?_ hraw hhash ?_ hverifier ?_
  · rw [hkeeps, ← hargsClient]
    exact hp.stillMatching.client.symm
  · rw [hredirect, hkeeps, ← hargsRedirect]
    exact congrArg some hp.stillMatching.redirect.symm
  · rw [hkeeps, ← hargsVerifier]
    exact hp.stillMatching.verifier

/-- **Every session is one of a user who logged in.** -/
theorem logged_in (h : Running C keys W) {s : SessionRow}
    (hs : s ∈ W.store.db.rows .providerSessions) : LoggedInAs W s := by
  obtain ⟨e, he, hstarted⟩ := started_origin h.reachable s hs
  cases hstarted with
  | @login claim identity lifetime registry row hcall hrow hclaimed huser htime =>
      obtain ⟨w, hw, p, endpoint, past, htask, _, hpast, hmay, harea⟩ :=
        h.owner_of he (by rw [hcall]; exact nofun)
      rw [hcall] at hmay harea
      cases endpoint with
      | browser req =>
          exact .google hw htask (Vouched.mono hmay.2 hpast)
            (findIdentity_later (reachable_integrity h.reachable)
              (entry_progress_after h.reachable he) huser) htime
      | _ => cases harea
  | direct hnobody =>
      obtain ⟨w, hw, p, endpoint, past, htask, _, hpast, hmay, harea⟩ :=
        h.owner_of he (by rw [hnobody]; exact nofun)
      cases endpoint with
      | preflight headers => exact hmay.elim
      | _ => cases hnobody.symm.trans harea

/-- **Every code was asked for and approved.** -/
theorem asked_with (h : Running C keys W) {code : AuthorizationCodeRow}
    (hcode : code ∈ W.store.db.rows .authorizationCodes) : ∃ row a R pending,
      AskedWith C W code.toCodeRow row a R pending ∧
      ApprovedBy C W code.toCodeRow row a R pending := by
  have honline := h.online
  obtain ⟨e, he, found, hfound, hissued, hways⟩ := code_cases honline hcode
  have he : e ∈ W.store.log := he
  obtain ⟨row, hrow, hid, hconsent, hsession⟩ := entry_consent h.reachable he hfound
  -- the transaction of the code is the one that the call found
  obtain ⟨session, handle, registry, happroves, hhandle⟩ : ∃ session handle registry,
      e.call.call.approves = some (session, handle, registry) ∧
        found.id = handle.transactionId := by
    rcases hways with ⟨session, handle, R, hcall, _, hof, _⟩ |
      ⟨session, handle, R, _, hcall, hof, _⟩
    · exact ⟨session, handle, R, by rw [hcall]; rfl, hof⟩
    · exact ⟨session, handle, R, by rw [hcall]; rfl, hof⟩
  obtain ⟨row', hrow', hid', hsession', hcopied⟩ := issued_of h.reachable he happroves hissued
  obtain rfl : row' = row := same_key (reachable_integrity h.reachable) hrow' hrow
    (hid'.trans (hhandle.symm.trans hid.symm))
  obtain ⟨w, a, R, pending, ho⟩ := row_origin honline hrow
  obtain ⟨now, hstored⟩ := ho.consent honline hrow
  obtain ⟨now', hpending⟩ := ho.starts.pending
  obtain ⟨hclient, hredirect, hscopes, hchallenge, _, _⟩ := R.validatePendingParts_ok hpending
  rw [hstored] at hcopied
  obtain ⟨v, hv, htask, hrecord⟩ : ∃ v ∈ W.workers,
      v.task = (w.task.1, .browser w.task.2) ∧ v.record = w.record := by
    obtain ⟨v, hv, hshown⟩ := Sql.Part.worker_of ho.worker
    obtain ⟨⟨p, endpoint⟩, record, progress⟩ := v
    cases endpoint with
    | browser req =>
        obtain rfl := Option.some.inj hshown
        exact ⟨_, hv, rfl, rfl⟩
    | _ => cases hshown
  refine ⟨row', a, R, pending, ?_, ?_⟩
  · exact
      { request := ⟨v, hv, w.task.1, w.task.2, htask, ho.starts.asked,
          hrecord ▸ ho.starts.resolved⟩
        accepted := ⟨now', hpending⟩
        stored := hrow
        client := hcopied.client.trans hclient
        redirect := hcopied.redirect.trans hredirect
        challenge := hcopied.challenge.trans hchallenge
        nonce := hcopied.nonce
        scopes := hcopied.scopes.trans hscopes
        resource := hcopied.resource }
  rcases hways with ⟨session₁, handle₁, R₁, hcall, _, hof, hfoundSession, hcsrf⟩ |
    ⟨session₁, handle₁, R₁, _, hcall, _, hallow, _⟩
  · obtain ⟨u, hu, p, endpoint, past, hutask, hcalled, hpast, hmay, harea⟩ :=
      h.owner_of he (by rw [hcall]; exact nofun)
    rw [hcall] at hmay harea
    cases endpoint with
    | browser req =>
        obtain ⟨hmay, hflow⟩ := hmay
        have hsigned : SignedIn p req.headers u.record session₁ := SignedIn.mono hflow hpast
        have hcookie := signedIn_cookie h hu hsigned
        have hof' : code.sessionId = session₁.id :=
          Option.some.inj (hsession'.symm.trans (hsession _ hfoundSession))
        refine .form hu hutask (hmay.approves session₁ handle₁ R₁ rfl) (hid.trans hof) he hcalled
          hfound hid.symm hcsrf ?_
        rw [hof']
        exact hcookie
    | _ => cases harea
  · obtain ⟨hprompt, hpolicy⟩ := (ho.allows honline hrow).mp (hconsent ▸ hallow)
    exact .policy hprompt hpolicy

/-! ## 3. Tokens -/

/-- **Tokens are owed to their user.** Whatever the token endpoint answers with, to a code or to a
    refresh token after any number of rotations, is issued for the client of the request and goes
    back to one code: its client redeemed it with the verifier of its challenge; a browser asked
    for it, for the same client, redirect URI, challenge and nonce, with exactly its scopes, and
    the client's policy accepted the request; it was approved for its session by a form that came
    with the session's cookie, or by a policy that needs none; and Google vouched for the user of
    the session, who is the one the tokens are about. -/
theorem tokens_owed (h : Running C keys W) {i now : Nat} {jti : Uuid} {headers : HeaderMap}
    {body : List UInt8} {record : Record} {answer : TokenAnswer} {tokens : TokenResponse}
    (hi : W.At i (p, .token now jti headers body) record (.ready (.done (.token answer))))
    (htokens : answer.result = .ok tokens) :
    ∃ q a x initial, readToken C p headers body = .ok (q, a) ∧ a.client = x.clientId ∧
      issue keys p.issuer p.userinfo x initial now jti = .ok tokens ∧
      ∃ code ∈ W.store.db.rows .authorizationCodes, ∃ s ∈ W.store.db.rows .providerSessions,
        x.Of (AuthorizationCodeRow.toCodeRow code) s ∧ RedeemedAt C W code ∧ LoggedInAs W s ∧
        ∃ row request R pending,
          AskedWith C W (AuthorizationCodeRow.toCodeRow code) row request R pending ∧
          ApprovedBy C W (AuthorizationCodeRow.toCodeRow code) row request R pending := by
  have hw : (⟨(p, .token now jti headers body), record, .ready (.done (.token answer))⟩ : Visit) ∈
    W.workers := List.mem_of_getElem? hi
  obtain ⟨hends, _⟩ :
      TokenEnds keys p now jti record answer ∧ TokenOrigin C p headers body answer :=
    h.obeying.ended hi
  obtain ⟨past, n, call, x, initial, hlast, hissue⟩ := hends tokens htokens
  have hcalled : .called n call ∈ record := by rw [hlast]; simp
  have hreplied : .replied n (some (.exchanged (.ok x))) ∈ record := by rw [hlast]; simp
  obtain ⟨e, he, rfl, hcall, hreply⟩ := h.obeying.entry (lawful C.toPlatform) h hw hcalled hreplied
  have hcall : e.call.call = call := hcall
  subst hcall
  have hgranted : e.reply.granted = some x := by rw [hreply]; rfl
  obtain ⟨code, hcode, s, hs, hof, hused⟩ := granted_code h.reachable he hgranted
  obtain ⟨before, _, hmay⟩ := h.obeying.may_called hw hcalled
  obtain ⟨q, a, R, initial', hread, _, hgrant⟩ :
    TokenCall C p headers body before e.call.call := hmay
  have hclient : a.client = x.clientId := by
    obtain ⟨_, hrun⟩ := reachable_entry (lawful C.toPlatform) h.reachable he
    have hnamed : e.call.call.clientOf = some x.clientId := by
      rcases (entry_change h.reachable he).granted_call hgranted with ⟨raw, hc⟩ | ⟨raw, hc⟩
      · exact granted_client hrun hgranted (Or.inl hc)
      · exact granted_client hrun hgranted (Or.inr hc)
    exact Option.some.inj ((grantCall_client hgrant).symm.trans hnamed)
  exact ⟨q, a, x, initial, hread, hclient, hissue, code, hcode, s, hs, hof,
    redeemed_at h hcode hused, logged_in h hs, asked_with h hcode⟩

/-- The tokens of the run that were had for a refresh token. -/
theorem tokens_owed_site : ∃ code ∈ Sample.site.store.db.rows .authorizationCodes,
    RedeemedAt Sample.siteCrates Sample.site code ∧
    ∃ s ∈ Sample.site.store.db.rows .providerSessions, LoggedInAs Sample.site s := by
  obtain ⟨endpoint, record, a, hendpoint, hbrief, hat⟩ := Sample.site_at (i := 3) rfl
  obtain rfl := Option.some.inj hendpoint
  have hends := Sample.site_runs.obeying.ended hat
  cases a with
  | token answer =>
      obtain ⟨tokens, htokens, _⟩ := Option.map_eq_some_iff.mp hbrief
      have hok : answer.result = .ok tokens := by
        cases hresult : answer.result with
        | error e =>
            rw [hresult] at htokens
            cases htokens
        | ok t =>
            rw [hresult] at htokens
            exact congrArg Except.ok (Option.some.inj htokens)
      obtain ⟨_, _, _, _, _, _, _, code, hcode, s, hs, _, hredeemed, hlogin, _⟩ :=
        tokens_owed Sample.site_runs hat hok
      exact ⟨code, hcode, hredeemed, s, hs, hlogin⟩
  | page r => exact hends.elim
  | api a => exact hends.elim
  | logout a => exact hends.elim

end Web

end Eri
