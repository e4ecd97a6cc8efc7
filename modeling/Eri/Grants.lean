/-
  File:      Eri/Grants.lean
  Subject:   What a grant is made of, from the request to its last refresh token.

  The same facts stand in four tables: a transaction holds the request, a code the columns of
  its transaction, a family those of its code (`FamilyRow.Descends`), and an answer reports
  what its code or its family holds.

  * `revalidate_ok` -- a stored request that passes its checks again is the stored request;
  * `Issues`, `code_origin` -- the three calls a code comes from;
  * `CodeRow.Of`, `issued_of` -- a code of a transaction copies it;
  * `Began`, `Issued` -- what the rows of a reachable machine come from;
  * **`grants_never_expand`**.
-/
import Eri.Transactions

namespace Eri

open Sql

variable {P : Platform} {M : Machine schema Request Reply} {c : Request} {t : Tape} {db db' : Db}

/-! ## 1. Checked again -/

/-- A request is the one a transaction holds. -/
structure PendingAuthorizationGrant.Of (p : PendingAuthorizationGrant) (row : ConsentRow) :
    Prop where
  client : p.clientId = row.clientId
  redirect : p.redirectUri = row.redirectUri
  scopes : p.scopes = row.scopes
  resource : p.resource = row.resource
  challenge : p.codeChallenge = row.codeChallenge
  binding : p.cimdBindingJson = row.cimdBinding

/-- **A stored request that passes again is the stored request**: its scopes were in order,
    its resource was named, and its binding is the one of the policy it passed under. -/
theorem revalidate_ok {R : ClientRegistry} {now now' : Instant} {row : BrowserRow}
    {p : PendingAuthorizationGrant} (hrow : BrowserRow.Ok db row)
    (h : revalidate P R now now' row.toConsentRow = .ok p) : p.Of row.toConsentRow := by
  obtain ⟨hbinding, hparts⟩ := revalidate_checks h
  have hstored : row.cimdBinding = (R.dynamicFor row.clientId).map fun d => d.binding.toJson :=
    R.validateBinding_ok hbinding hrow.binding
  obtain ⟨hclient, hredirect, hscopes, hchallenge, hdynamic, hresource⟩ :=
    R.validatePendingParts_ok hparts
  refine ⟨hclient, hredirect, ?_, hresource _ rfl, hchallenge, ?_⟩
  · rw [hscopes, inOrder_of_sorted hrow.sorted]
  · rw [hstored, PendingAuthorizationGrant.cimdBindingJson, hdynamic]

/-! ## 2. Codes -/

/-- A code copies its transaction. -/
structure CodeRow.Of (code : CodeRow) (row : ConsentRow) : Prop where
  client : code.clientId = row.clientId
  redirect : code.redirectUri = row.redirectUri
  scopes : code.scopes = row.scopes
  resource : code.resource = row.resource
  challenge : code.codeChallenge = row.codeChallenge
  nonce : code.oidcNonce = row.oidcNonce
  binding : code.cimdBinding = row.cimdBinding

/-- **The calls a code comes from.** -/
inductive Issues (P : Platform) (t : Tape) (db : Db) : Call → AuthorizationCodeRow → Prop where
  | direct {session : ProviderSession} {grant : ValidatedAuthorizationGrant}
      {lifetime : Duration} {s : SessionRow} {seconds : Nat}
      (hs : findSession db session.id = some s)
      (hseconds : boundedSeconds CredentialError.invalidLifetime lifetime 60 = .ok seconds) :
      Issues P t db (.issueAuthorizationCode session grant lifetime)
        (.issue (t.uuid 0) (t.hash P 0) session.id grant none s.upstreamAuthTime (t.now 1)
          seconds (some s))
  | approve {session : ProviderSession} {handle : ConsentHandle} {registry : ClientRegistry}
      {s : SessionRow} {row : BrowserRow} {pending : PendingAuthorizationGrant}
      {grant : ValidatedAuthorizationGrant} (hp : ConsentPresented P t session handle db s row)
      (hpending : revalidate P registry (t.instant 0) (t.instant 1) row.toConsentRow =
        .ok pending)
      (hgrant : pending.approve (t.instant 2) true = .ok grant) :
      Issues P t db (.approve session handle registry)
        (.issue (t.uuid 0) (t.hash P 0) session.id grant row.oidcNonce s.upstreamAuthTime
          (t.now 1) 60 (some s))
  | approvePreAuthorized {session : ProviderSession} {handle : ConsentHandle}
      {registry : ClientRegistry} {s : SessionRow} {row : BrowserRow}
      {pending : PendingAuthorizationGrant} {grant : ValidatedAuthorizationGrant}
      (hp : ConsentPresented P t session handle db s row)
      (hpending : revalidate P registry (t.instant 0) (t.instant 1) row.toConsentRow =
        .ok pending)
      (hallow : row.allowPreAuthorization = true)
      (hpre : registry.preAuthorizes pending = true)
      (hgrant : pending.approve (t.instant 2) true = .ok grant) :
      Issues P t db (.approvePreAuthorized session handle registry)
        (.issue (t.uuid 0) (t.hash P 0) session.id grant row.oidcNonce s.upstreamAuthTime
          (t.now 1) 60 (some s))

theorem AuthorizationCodeRow.later_consume (code : AuthorizationCodeRow) (now : Time)
    (h : code.consumedAt = none) : code.Later (code.consume now) :=
  ⟨rfl, by rw [h]; exact .none _⟩

/-- The row an insert adds, or one that was there. -/
theorem mem_inserted {u : Table} {row x : Row u} (h : x ∈ (db.insert u row).rows u) :
    x ∈ db.rows u ∨ x = row := by
  rw [Db.insert_rows_self] at h
  simpa using h

theorem approvedRows_codes {session : ProviderSession} {handle : ConsentHandle}
    {s : SessionRow} {row : BrowserRow} {grant : ValidatedAuthorizationGrant} :
    (approvedRows P t session handle s row grant db).rows .authorizationCodes =
      (db.insert .authorizationCodes (.issue (t.uuid 0) (t.hash P 0) session.id grant
        row.oidcNonce s.upstreamAuthTime (t.now 1) 60 (some s))).rows .authorizationCodes := by
  unfold approvedRows
  rw [Db.update_rows_ne _ _ _ (by decide)]

/-- An exchange consumes codes and adds none. -/
theorem exchanged_codes {code x : AuthorizationCodeRow} {session : SessionRow}
    (hI : (layout P).Integrity db) (hcode : code ∈ db.rows .authorizationCodes)
    (hredeem : code.Redeemable session (t.now 0))
    (h : x ∈ (exchangedRows P t code session db).rows .authorizationCodes) :
    ∃ y ∈ db.rows .authorizationCodes, AuthorizationCodeRow.Later y x := by
  have hrows : (exchangedRows P t code session db).rows .authorizationCodes =
      (db.update .authorizationCodes (fun c => c.id = code.id) (.consume (t.now 0))).rows
        .authorizationCodes := by
    unfold exchangedRows
    split
    · rw [Db.insert_rows_ne _ _ (by decide), Db.insert_rows_ne _ _ (by decide)]
    · rfl
  rw [hrows, Db.update_rows_self] at h
  obtain ⟨y, hy, rfl⟩ := List.mem_map.mp h
  refine ⟨y, hy, ?_⟩
  split
  · rename_i hid
    have hsame : y = code := same_key hI hy hcode (of_decide_eq_true hid)
    exact y.later_consume _ (hsame ▸ hredeem.unconsumed)
  · exact Row.later_refl (t := .authorizationCodes) y

/-- **A code is a version of one that was there, or one the call issued.** -/
theorem code_origin {r : Reply} (hgood : (contract P).Good c db)
    (h : (program P c).run db = (r, db')) : ∀ code ∈ db'.rows .authorizationCodes,
      (∃ x ∈ db.rows .authorizationCodes, AuthorizationCodeRow.Later x code) ∨
        Issues P c.tape db c.call code := by
  intro code hcode
  have hsame : db'.rows .authorizationCodes = db.rows .authorizationCodes →
      ∃ x ∈ db.rows .authorizationCodes, AuthorizationCodeRow.Later x code := fun e =>
    ⟨code, e ▸ hcode, Row.later_refl (t := .authorizationCodes) code⟩
  have hframe : Table.authorizationCodes ∉ c.call.writes →
      ∃ x ∈ db.rows .authorizationCodes, AuthorizationCodeRow.Later x code := fun hw => by
    have hframe := program_frame (P := P) hw db
    rw [h] at hframe
    exact hsame hframe
  have hexchange : ∀ raw, c.call.exchangeOf = some raw →
      ∃ x ∈ db.rows .authorizationCodes, AuthorizationCodeRow.Later x code := fun raw hc => by
    rcases exchange_run hc h with ⟨e, rfl, rfl⟩ | ⟨a, x, _, rfl, rfl, hrun⟩
    · exact hsame rfl
    rcases exchangeBound_run hrun with ⟨e, rfl, rfl⟩ | ⟨seen, shown, session, hp, hend⟩
    · exact hsame rfl
    rcases hend with ⟨_, rfl, rfl⟩ | ⟨hredeem, rfl, rfl⟩
    · exact hsame (Db.update_rows_ne _ _ _ (by decide))
    · obtain ⟨rfl, hshown⟩ := hp.row hgood.inv
      exact exchanged_codes hgood.inv hshown.stored hredeem hcode
  obtain ⟨call, t⟩ := c
  cases call with
  | issueAuthorizationCode session grant lifetime =>
      obtain ⟨x, hx, rfl⟩ := run_of_map h
      rcases issueAuthorizationCode_run hx with ⟨_, _, rfl⟩ | ⟨seconds, s, hsec, hs, _, _, rfl⟩
      · exact Or.inl (hsame rfl)
      rcases mem_inserted (u := .authorizationCodes) hcode with hold | rfl
      · exact Or.inl ⟨code, hold, Row.later_refl (t := .authorizationCodes) code⟩
      · exact Or.inr (.direct hs hsec)
  | approve session handle registry =>
      obtain ⟨x, hx, rfl⟩ := run_of_map h
      rcases approve_run hx with
        ⟨_, rfl⟩ | ⟨s, row, pending, grant, hp, hpending, hgrant, _, _, rfl⟩
      · exact Or.inl (hsame rfl)
      rw [approvedRows_codes] at hcode
      rcases mem_inserted (u := .authorizationCodes) hcode with hold | rfl
      · exact Or.inl ⟨code, hold, Row.later_refl (t := .authorizationCodes) code⟩
      · exact Or.inr (.approve hp hpending hgrant)
  | approvePreAuthorized session handle registry =>
      obtain ⟨x, hx, rfl⟩ := run_of_map h
      rcases approvePreAuthorized_run hx with ⟨_, rfl⟩ | ⟨s, row, pending, hp, hpending, hend⟩
      · exact Or.inl (hsame rfl)
      rcases hend with ⟨_, rfl⟩ | ⟨grant, hallow, hpre, hgrant, _, _, rfl⟩
      · exact Or.inl (hsame rfl)
      rw [approvedRows_codes] at hcode
      rcases mem_inserted (u := .authorizationCodes) hcode with hold | rfl
      · exact Or.inl ⟨code, hold, Row.later_refl (t := .authorizationCodes) code⟩
      · exact Or.inr (.approvePreAuthorized hp hpending hallow hpre hgrant)
  | exchangeCode raw => exact Or.inl (hexchange raw rfl)
  | exchangeCodeRequest raw => exact Or.inl (hexchange raw rfl)
  | _ => exact Or.inl (hframe (by simp [Call.writes]))

/-! ## 3. Origins -/

/-- The request a call begins a transaction with: the grant, the client's state, the nonce and
    whether it may be approved without a page. -/
def Call.begins : Call →
    Option (PendingAuthorizationGrant × Option String × Option String × Bool)
  | .beginGoogle pending state nonce allow => some (pending, state, nonce, allow)
  | .beginAuthenticated _ pending state nonce allow => some (pending, state, nonce, allow)
  | _ => none

/-- The consent a call approves. -/
def Call.approves : Call → Option (ProviderSession × ConsentHandle × ClientRegistry)
  | .approve session handle registry => some (session, handle, registry)
  | .approvePreAuthorized session handle registry => some (session, handle, registry)
  | _ => none

/-- The call of `e` began the transaction `row`. -/
def Began (e : Entry) (row : BrowserRow) : Prop :=
  ∃ pending state nonce allow now, e.call.call.begins = some (pending, state, nonce, allow) ∧
    row.id = e.call.tape.uuid 0 ∧ row.toConsentRow = .of pending state nonce allow now

/-- The call of `e` issued the code. -/
def Issued (P : Platform) (e : Entry) (code : AuthorizationCodeRow) : Prop :=
  ∃ x, Issues P e.call.tape e.before e.call.call x ∧ AuthorizationCodeRow.Later x code

theorem Begins.began {e : Entry} {row : BrowserRow}
    (h : Begins P e.call.tape e.call.call row) : Began e row := by
  obtain ⟨thread, ⟨call, t⟩, reply, before, after⟩ := e
  cases h with
  | google => exact ⟨_, _, _, _, _, rfl, rfl, rfl⟩
  | authenticated => exact ⟨_, _, _, _, _, rfl, rfl, rfl⟩

/-- **Every transaction began with a request it still holds.** -/
theorem reachable_began (h : Reachable P M) :
    ∀ row ∈ M.db.rows .browserAuthorizations, ∃ e ∈ M.log, Began e row := by
  refine reachable_origin
    (fun r r' : BrowserRow => r'.id = r.id ∧ r'.toConsentRow = r.toConsentRow) (lawful P) rfl
    (fun e r r' hG hl => ?_) (fun e hgood hrun r hr => ?_) h
  · obtain ⟨pending, state, nonce, allow, now, hcall, hid, hconsent⟩ := hG
    exact ⟨pending, state, nonce, allow, now, hcall, hl.1.trans hid, hl.2.trans hconsent⟩
  · cases browserChange hgood hrun with
    | same _ hrows => exact Or.inl ⟨r, hrows ▸ hr, rfl, rfl⟩
    | begins _ row hnew hrows =>
        rw [hrows] at hr
        rcases List.mem_append.mp hr with hold | hlast
        · exact Or.inl ⟨r, hold, rfl, rfl⟩
        · rw [List.mem_singleton] at hlast
          exact Or.inr (hlast ▸ hnew.began)
    | move row hrow set hmove hrows =>
        rw [hrows, Db.update_rows_self] at hr
        obtain ⟨x, hx, rfl⟩ := List.mem_map.mp hr
        refine Or.inl ⟨x, hx, ?_⟩
        split
        · rename_i hid
          have hsame : x = row := same_key hgood.inv hx hrow (of_decide_eq_true hid)
          rw [hsame]
          exact ⟨hmove.id, hmove.consent⟩
        · exact ⟨rfl, rfl⟩

/-- **Every code was issued by a call of the run.** -/
theorem reachable_issued (h : Reachable P M) :
    ∀ code ∈ M.db.rows .authorizationCodes, ∃ e ∈ M.log, Issued P e code := by
  refine reachable_origin AuthorizationCodeRow.Later (lawful P) rfl
    (fun e r r' hG hl => ?_) (fun e hgood hrun r hr => ?_) h
  · obtain ⟨x, hx, hlater⟩ := hG
    exact ⟨x, hx, Row.later_trans (t := .authorizationCodes) hlater hl⟩
  · rcases code_origin hgood hrun r hr with hold | hnew
    · exact Or.inl hold
    · exact Or.inr ⟨r, hnew, Row.later_refl (t := .authorizationCodes) r⟩

/-- A transaction found by a call is there in the end, with what was asked for. -/
theorem entry_consent {e : Entry} {row : BrowserRow} (h : Reachable P M) (he : e ∈ M.log)
    (hrow : row ∈ e.before.rows .browserAuthorizations) :
    ∃ row' ∈ M.db.rows .browserAuthorizations, BrowserRow.id row' = row.id ∧
      BrowserRow.toConsentRow row' = row.toConsentRow ∧
      SetOnce row.sessionId (BrowserRow.sessionId row') := by
  obtain ⟨row', hrow', hlater⟩ := entry_progress h he .browserAuthorizations row hrow
  exact ⟨row', hrow', BrowserRow.Later.id hlater, BrowserRow.Later.consent hlater,
    BrowserRow.Later.session hlater⟩

/-- **A code of a transaction copies it.** -/
theorem issued_of {e : Entry} {code : AuthorizationCodeRow} {session : ProviderSession}
    {handle : ConsentHandle} {registry : ClientRegistry} (h : Reachable P M) (he : e ∈ M.log)
    (hcall : e.call.call.approves = some (session, handle, registry))
    (hissued : Issued P e code) :
    ∃ row ∈ M.db.rows .browserAuthorizations, BrowserRow.id row = handle.transactionId ∧
      BrowserRow.sessionId row = some code.sessionId ∧ code.Of (BrowserRow.toConsentRow row) := by
  obtain ⟨x, hissues, hlater⟩ := hissued
  -- both approvals issue the code of a request that passed again
  obtain ⟨s, row, pending, grant, hp, hpending, hgrant, rfl⟩ : ∃ s row pending grant,
      ConsentPresented P e.call.tape session handle e.before s row ∧
      revalidate P registry (e.call.tape.instant 0) (e.call.tape.instant 1) row.toConsentRow =
        .ok pending ∧
      pending.approve (e.call.tape.instant 2) true = .ok grant ∧
      x = .issue (e.call.tape.uuid 0) (e.call.tape.hash P 0) session.id grant row.oidcNonce
        s.upstreamAuthTime (e.call.tape.now 1) 60 (some s) := by
    generalize e.call.call = call at hcall hissues
    cases hissues with
    | direct => cases hcall
    | approve hp hpending hgrant =>
        cases hcall
        exact ⟨_, _, _, _, hp, hpending, hgrant, rfl⟩
    | approvePreAuthorized hp hpending _ _ hgrant =>
        cases hcall
        exact ⟨_, _, _, _, hp, hpending, hgrant, rfl⟩
  have hmem : row ∈ e.before.rows .browserAuthorizations :=
    find_mem (t := .browserAuthorizations) hp.locked
  have hconsents : row.consents P handle session.id = true := List.find?_some hp.locked
  have hI : (layout P).Integrity e.before := (reachable_entry (lawful P) h he).1.inv
  have hof : pending.Of row.toConsentRow :=
    revalidate_ok (hI.ok .browserAuthorizations row hmem) hpending
  obtain ⟨hclient, hredirect, hscopes, hresource, hchallenge, hdynamic⟩ :=
    PendingAuthorizationGrant.approve_ok hgrant
  have hbinding : grant.cimdBindingJson = pending.cimdBindingJson := by
    unfold ValidatedAuthorizationGrant.cimdBindingJson PendingAuthorizationGrant.cimdBindingJson
    rw [hdynamic]
  obtain ⟨row', hrow', hid, hconsent, hsession⟩ := entry_consent h he hmem
  refine ⟨row', hrow', hid.trans (consents_id hconsents), ?_, ?_⟩
  · rw [hlater.keeps]
    exact hsession _ (consents_session hconsents)
  · rw [hlater.keeps, hconsent]
    exact
      { client := hclient.trans hof.client
        redirect := hredirect.trans hof.redirect
        scopes := hscopes.trans hof.scopes
        resource := hresource.trans hof.resource
        challenge := hchallenge.trans hof.challenge
        nonce := rfl
        binding := hbinding.trans hof.binding }

/-! ## 4. Answers -/

/-- An answer reports a code and its session. -/
structure ExchangeResult.Of (x : ExchangeResult) (code : CodeRow) (s : SessionRow) : Prop where
  session : x.sessionId = code.sessionId
  login : s.id = code.sessionId
  user : x.userId = s.userId
  client : x.clientId = code.clientId
  scopes : x.scopes = code.scopes
  resource : x.resource = code.resource
  upstream : x.upstreamAuthTime = code.upstreamAuthTime

/-- A call presents the code `code`, or a token of its family. -/
def PresentsGrant (P : Platform) (db : Db) (call : Call) (code : AuthorizationCodeRow) : Prop :=
  (∀ raw, call.exchangeOf = some raw → code.codeHash = secretHash P raw) ∧
  ∀ raw, call.rotationOf = some raw → ∃ m ∈ db.rows .refreshTokenMembers,
    ∃ f ∈ db.rows .refreshFamilies, MemberRow.tokenHash m = secretHash P raw ∧
      FamilyRow.id f = MemberRow.familyId m ∧ FamilyRow.sourceCodeId f = code.id

/-- The columns of a code and of a session that no call changes. -/
theorem ExchangeResult.Of.later {x : ExchangeResult} {code code' : AuthorizationCodeRow}
    {s s' : SessionRow} (h : x.Of code.toCodeRow s) (hcode : code.Later code')
    (hs : s.Later s') : x.Of code'.toCodeRow s' := by
  rw [hcode.keeps, hs.keeps]
  exact ⟨h.session, h.login, h.user, h.client, h.scopes, h.resource, h.upstream⟩

theorem exchanged_of {e : Entry} {raw : String} {x : ExchangeResult} (h : Reachable P M)
    (he : e ∈ M.log) (hcall : e.call.call.exchangeOf = some raw)
    (hx : e.reply.granted = some x) :
    ∃ code ∈ M.db.rows .authorizationCodes, ∃ s ∈ M.db.rows .providerSessions,
      x.Of (AuthorizationCodeRow.toCodeRow code) s ∧ PresentsGrant P M.db e.call.call code ∧
      (x.refreshToken.isSome = true ↔ "offline_access" ∈ (AuthorizationCodeRow.toCodeRow
        code).scopes) ∧
      (x.refreshToken.isSome = true → ∃ f ∈ M.db.rows .refreshFamilies,
        FamilyRow.sourceCodeId f = (AuthorizationCodeRow.toCodeRow code).id) := by
  obtain ⟨code, session, hshown, hredeem, rfl, hafter⟩ := (entry_change h he).exchanged hcall hx
  have hI : (layout P).Integrity e.before := (reachable_entry (lawful P) h he).1.inv
  obtain ⟨code', hcode', hlater⟩ := entry_progress h he .authorizationCodes code hshown.stored
  obtain ⟨s', hs', hslater⟩ := entry_progress h he .providerSessions session hshown.login
  have hof : (exchangedResult e.call.tape code session).Of code.toCodeRow session :=
    ⟨rfl, hshown.ofLogin, rfl, rfl, rfl, rfl, rfl⟩
  have hissue : (exchangedResult e.call.tape code session).refreshToken.isSome = true ↔
      code.issueRefreshToken = true := by
    unfold exchangedResult
    cases code.issueRefreshToken <;> simp
  have hkeeps := AuthorizationCodeRow.Later.keeps hlater
  refine ⟨code', hcode', s', hs', hof.later hlater hslater, ⟨fun raw' hraw' => ?_,
    fun raw' hraw' => absurd hraw' (Call.not_both hcall)⟩, ?_, fun hsome => ?_⟩
  · rw [hcall] at hraw'
    cases hraw'
    rw [hkeeps]
    exact hshown.hash
  · rw [hkeeps, hissue]
    exact (hI.ok .authorizationCodes code hshown.stored).refresh
  · have hfamily : FamilyRow.descend (e.call.tape.uuid 0) code.toCodeRow session
        (e.call.tape.now 0) ∈ e.after.rows .refreshFamilies := by
      rw [hafter]
      unfold exchangedRows
      rw [if_pos (hissue.mp hsome), Db.insert_rows_ne _ _ (by decide), Db.insert_rows_self]
      exact List.mem_append_right _ List.mem_cons_self
    obtain ⟨f, hf, hflater⟩ := entry_progress_after h he .refreshFamilies _ hfamily
    refine ⟨f, hf, ?_⟩
    rw [FamilyRow.Later.keeps hflater, hkeeps]
    rfl

theorem rotated_of {e : Entry} {raw : String} {x : ExchangeResult} (h : Reachable P M)
    (he : e ∈ M.log) (hcall : e.call.call.rotationOf = some raw)
    (hx : e.reply.granted = some x) :
    ∃ code ∈ M.db.rows .authorizationCodes, ∃ s ∈ M.db.rows .providerSessions,
      x.Of (AuthorizationCodeRow.toCodeRow code) s ∧ PresentsGrant P M.db e.call.call code ∧
      x.refreshToken.isSome = true ∧
      "offline_access" ∈ (AuthorizationCodeRow.toCodeRow code).scopes := by
  obtain ⟨member, family, session, hshown, _, rfl, _⟩ := (entry_change h he).rotated hcall hx
  have hI : (layout P).Integrity e.before := (reachable_entry (lawful P) h he).1.inv
  obtain ⟨code, hcode, hdescends, _, hissue⟩ :=
    (hI.ok .refreshFamilies family hshown.grant).code
  obtain ⟨code', hcode', hlater⟩ := entry_progress h he .authorizationCodes code hcode
  obtain ⟨s', hs', hslater⟩ := entry_progress h he .providerSessions session hshown.login
  obtain ⟨m', hm', hmlater⟩ := entry_progress h he .refreshTokenMembers member hshown.stored
  obtain ⟨f', hf', hflater⟩ := entry_progress h he .refreshFamilies family hshown.grant
  have hof : (rotatedResult e.call.tape family.sessionId family session).Of code.toCodeRow
      session :=
    ⟨hdescends.session, hshown.ofLogin.trans hdescends.session, rfl, hdescends.client,
      hdescends.scopes, hdescends.resource, hdescends.upstream⟩
  have hkeeps := AuthorizationCodeRow.Later.keeps hlater
  have hmkeeps := MemberRow.Later.keeps hmlater
  have hfkeeps := FamilyRow.Later.keeps hflater
  refine ⟨code', hcode', s', hs', hof.later hlater hslater, ⟨fun raw' hraw' =>
    absurd hcall (Call.not_both hraw'), fun raw' hraw' => ⟨m', hm', f', hf', ?_, ?_, ?_⟩⟩, rfl, ?_⟩
  · rw [hcall] at hraw'
    cases hraw'
    rw [hmkeeps]
    exact hshown.hash
  · rw [hmkeeps, hfkeeps]
    exact hshown.ofGrant
  · rw [hkeeps, hfkeeps]
    exact hdescends.source
  · rw [hkeeps]
    exact (hI.ok .authorizationCodes code hcode).refresh.mp hissue

/-- Only exchanges and rotations hand out a grant. -/
theorem CredentialChange.granted_call {r : Reply} {x : ExchangeResult}
    (h : CredentialChange P c db r db') (hx : r.granted = some x) :
    (∃ raw, c.call.exchangeOf = some raw) ∨ ∃ raw, c.call.rotationOf = some raw := by
  have hnone : r.granted = none → False := fun e => by rw [e] at hx; cases hx
  cases h with
  | same hr => exact (hnone hr).elim
  | login hr => exact (hnone hr).elim
  | issue hr => exact (hnone hr).elim
  | exchange raw hc => exact Or.inl ⟨raw, hc⟩
  | replayCode raw hc => exact Or.inl ⟨raw, hc⟩
  | rotate raw hc => exact Or.inr ⟨raw, hc⟩
  | revoke family hf hr => exact (hnone hr).elim
  | logout session hs hr => exact (hnone hr).elim

/-- **An answer reports the code it goes back to.** -/
theorem granted_of {e : Entry} {x : ExchangeResult} (h : Reachable P M) (he : e ∈ M.log)
    (hx : e.reply.granted = some x) :
    ∃ code ∈ M.db.rows .authorizationCodes, ∃ s ∈ M.db.rows .providerSessions,
      x.Of (AuthorizationCodeRow.toCodeRow code) s ∧ PresentsGrant P M.db e.call.call code ∧
      (x.refreshToken.isSome = true ↔
        "offline_access" ∈ (AuthorizationCodeRow.toCodeRow code).scopes) ∧
      (x.refreshToken.isSome = true → ∃ f ∈ M.db.rows .refreshFamilies,
        FamilyRow.sourceCodeId f = (AuthorizationCodeRow.toCodeRow code).id) := by
  rcases (entry_change h he).granted_call hx with ⟨raw, hcall⟩ | ⟨raw, hcall⟩
  · exact exchanged_of h he hcall hx
  · obtain ⟨code, hcode, s, hs, hof, hpresents, htoken, hoffline⟩ := rotated_of h he hcall hx
    obtain ⟨_, _, f, hf, _, _, hsource⟩ := hpresents.2 raw hcall
    exact ⟨code, hcode, s, hs, hof, hpresents, iff_of_true htoken hoffline,
      fun _ => ⟨f, hf, hsource⟩⟩

/-- **Grants never expand.** In every reachable state a transaction holds the request it began
    with; a code issued by an approval copies its transaction and the login time of its
    session; a family copies its source code and the user of its session, and its code asked
    for `offline_access`. Every answer of an exchange or a rotation reports the code it goes
    back to and the user of its session, with a refresh token exactly when the code asked for
    one, and then the code has a family. -/
theorem grants_never_expand (P : Platform) {M : Machine schema Request Reply}
    (h : Reachable P M) :
    (∀ row ∈ M.db.rows .browserAuthorizations, ∃ e ∈ M.log, Began e row) ∧
    (∀ code ∈ M.db.rows .authorizationCodes, ∃ e ∈ M.log, Issued P e code ∧
      ∀ session handle registry, e.call.call.approves = some (session, handle, registry) →
        ∃ row ∈ M.db.rows .browserAuthorizations, BrowserRow.id row = handle.transactionId ∧
          BrowserRow.sessionId row = some (AuthorizationCodeRow.toCodeRow code).sessionId ∧
          CodeRow.Of (AuthorizationCodeRow.toCodeRow code) (BrowserRow.toConsentRow row)) ∧
    (∀ code ∈ M.db.rows .authorizationCodes, ∃ s ∈ M.db.rows .providerSessions,
      SessionRow.id s = (AuthorizationCodeRow.toCodeRow code).sessionId ∧
      (AuthorizationCodeRow.toCodeRow code).upstreamAuthTime = SessionRow.upstreamAuthTime s) ∧
    (∀ f ∈ M.db.rows .refreshFamilies, (∃ code ∈ M.db.rows .authorizationCodes,
        FamilyRow.Descends f (AuthorizationCodeRow.toCodeRow code) ∧
        "offline_access" ∈ (AuthorizationCodeRow.toCodeRow code).scopes) ∧
      ∃ s ∈ M.db.rows .providerSessions, SessionRow.id s = FamilyRow.sessionId f ∧
        SessionRow.userId s = FamilyRow.userId f) ∧
    ∀ e ∈ M.log, ∀ x, e.reply.granted = some x → ∃ code ∈ M.db.rows .authorizationCodes,
      ∃ s ∈ M.db.rows .providerSessions, x.Of (AuthorizationCodeRow.toCodeRow code) s ∧
        PresentsGrant P M.db e.call.call code ∧
        (x.refreshToken.isSome = true ↔
          "offline_access" ∈ (AuthorizationCodeRow.toCodeRow code).scopes) ∧
        (x.refreshToken.isSome = true → ∃ f ∈ M.db.rows .refreshFamilies,
          FamilyRow.sourceCodeId f = (AuthorizationCodeRow.toCodeRow code).id) := by
  have hI : (layout P).Integrity M.db := reachable_integrity h
  refine ⟨reachable_began h, fun code hcode => ?_, fun code hcode => ?_, fun f hf => ?_,
    fun e he x hx => granted_of h he hx⟩
  · obtain ⟨e, he, hissued⟩ := reachable_issued h code hcode
    exact ⟨e, he, hissued, fun session handle registry hcall => issued_of h he hcall hissued⟩
  · obtain ⟨s, hs, hid, hupstream, _⟩ := (hI.ok .authorizationCodes code hcode).session
    exact ⟨s, hs, hid, hupstream.symm⟩
  · have hok := hI.ok .refreshFamilies f hf
    obtain ⟨code, hcode, hdescends, _, hissue⟩ := hok.code
    obtain ⟨s, hs, hid, huser, _⟩ := hok.session
    exact ⟨⟨code, hcode, hdescends, (hI.ok .authorizationCodes code hcode).refresh.mp hissue⟩,
      s, hs, hid, huser⟩

/-- What a code and its rotated token report. -/
theorem grants_never_expand_rotated :
    ∃ e ∈ (Sample.machine Sample.grantSteps).log, ∃ x, e.reply.granted = some x ∧
      e.call.call.rotationOf = some "token" ∧
      ∃ code ∈ (Sample.machine Sample.grantSteps).db.rows .authorizationCodes,
        ∃ s ∈ (Sample.machine Sample.grantSteps).db.rows .providerSessions,
          x.Of (AuthorizationCodeRow.toCodeRow code) s := by
  have hreach : Reachable Sample.platform (Sample.machine Sample.grantSteps) :=
    Sample.reachable (by decide)
  obtain ⟨e, he, hsome, hcall⟩ : ∃ e ∈ (Sample.machine Sample.grantSteps).log,
      e.reply.granted.isSome = true ∧ e.call.call.rotationOf = some "token" := by
    decide +kernel
  obtain ⟨x, hx⟩ := Option.isSome_iff_exists.mp hsome
  obtain ⟨_, _, _, _, hanswers⟩ := grants_never_expand Sample.platform hreach
  obtain ⟨code, hcode, s, hs, hof, _⟩ := hanswers e he x hx
  exact ⟨e, he, x, hx, hcall, code, hcode, s, hs, hof⟩

end Eri
