/-
  File:      Eri/Specs/Browser.lean
  Subject:   What each call of the browser store returns and leaves, run alone on any rows.

  Every theorem lists the ways one operation can end: an error that leaves the rows alone, the
  two errors that mark an expired transaction (`claimCallback_run`, `completeCallback_run`),
  and the move along `Stage.Next` with what the caller showed for it.
-/
import Eri.Writes

namespace Eri

open Sql

variable {P : Platform} {t : Tape} {db db' : Db}

/-- The stored request passes the policy of a call, at the pairs of lease readings that begin
    at `ks`. -/
def PolicyPassed (P : Platform) (t : Tape) (registry : Option ClientRegistry) (row : ConsentRow)
    (ks : List Nat) : Prop :=
  ∀ k ∈ ks, validateOptionalRegistry P registry (t.instant k) (t.instant (k + 1)) row = .ok ()

theorem policyPassed_pair {registry : Option ClientRegistry} {row : ConsentRow} {i j : Nat}
    (hi : validateOptionalRegistry P registry (t.instant i) (t.instant (i + 1)) row = .ok ())
    (hj : validateOptionalRegistry P registry (t.instant j) (t.instant (j + 1)) row = .ok ()) :
    PolicyPassed P t registry row [i, j] := by
  intro k hk
  rcases List.mem_cons.mp hk with rfl | hk
  · exact hi
  · rwa [List.mem_singleton.mp hk]

/-- **Both checks of a stored request.** -/
theorem revalidate_checks {R : ClientRegistry} {now now' : Instant} {row : ConsentRow}
    {p : PendingAuthorizationGrant} (h : revalidate P R now now' row = .ok p) :
    R.validateBinding now row.clientId row.cimdBinding = .ok () ∧
      R.validatePendingParts P now' row.clientId row.redirectUri "code" "S256" row.codeChallenge
        row.scopes (some row.resource) = .ok p := by
  obtain ⟨_, hbinding, hparts⟩ := bind_ok h
  exact ⟨mapError_ok.mp hbinding, mapError_ok.mp hparts⟩

/-- A policy is passed by revalidation. -/
theorem revalidate_of_validate {R : ClientRegistry} {now now' : Instant} {row : ConsentRow}
    (h : validateOptionalRegistry P (some R) now now' row = .ok ()) :
    ∃ p, revalidate P R now now' row = .ok p := by
  unfold validateOptionalRegistry at h
  dsimp only at h
  cases hp : revalidate P R now now' row with
  | ok p => exact ⟨p, rfl⟩
  | error e =>
      rw [hp] at h
      cases h

/-- A call that revalidates passes the policy of its registry. -/
theorem validate_of_revalidate {R : ClientRegistry} {now now' : Instant} {row : ConsentRow}
    {p : PendingAuthorizationGrant} (h : revalidate P R now now' row = .ok p) :
    validateOptionalRegistry P (some R) now now' row = .ok () := by
  simp [validateOptionalRegistry, h, Except.map]

/-! ## 1. Until Google -/

theorem beginGoogle_run {pending : PendingAuthorizationGrant}
    {downstreamState oidcNonce : Option String} {allow : Bool}
    {r : Except BrowserError BrowserStart}
    (h : (beginGoogle P t pending downstreamState oidcNonce allow).tx.run db = (r, db')) :
    ((∃ e, r = .error e) ∧ db' = db) ∨
      (r = .ok ⟨t.uuid 0, t.secret 0, t.secret 1, t.secret 2, t.secret 3⟩ ∧
        db' = db.insert .browserAuthorizations (.google (t.uuid 0) (t.hash P 0) (t.hash P 1)
          (t.secret 2) (t.secret 3) (.of pending downstreamState oidcNonce allow (t.now 0))
          (t.now 0))) := by
  refine Tx.run_of_post h ((post_checked ..).mpr ⟨fun _ _ => ?_,
    fun _ _ => Or.inl ⟨⟨_, rfl⟩, rfl⟩⟩)
  refine (post_insert ..).mpr ((post_checked ..).mpr ⟨fun _ _ => ?_,
    fun _ _ => Or.inl ⟨⟨_, rfl⟩, rfl⟩⟩)
  exact Or.inr ⟨rfl, rfl⟩

/-- The transaction `start_google` and `cancel_google` look for. -/
def BrowserRow.awaits (P : Platform) (id : Uuid) (state binding : String) (now : Time)
    (r : BrowserRow) : Bool :=
  r.id = id && r.heldBy P state binding && r.stage = .awaitingStart && decide (r.expiresAt > now)

/-- The secrets `start_google` reads back. -/
def BrowserRow.startSecrets (r : BrowserRow) : Except BrowserError (String × String) := do
  let nonce ← nonNull r.upstreamNonce
  let verifier ← nonNull r.upstreamVerifier
  pure (nonce, verifier)

theorem startGoogle_run {id : Uuid} {state binding : String}
    {r : Except BrowserError (String × String)}
    (h : (startGoogle P t id state binding).tx.run db = (r, db')) :
    (r = .error .invalid ∧ db' = db) ∨
      ∃ row ∈ db.rows .browserAuthorizations, row.awaits P id state binding (t.now 0) = true ∧
        r = row.startSecrets ∧ db' = db.update .browserAuthorizations
          (BrowserRow.awaits P id state binding (t.now 0)) .awaitGoogle := by
  refine Tx.run_of_post h ((post_update ..).mpr ?_)
  let p := BrowserRow.awaits P id state binding (t.now 0)
  -- the answer by the rows that were there
  have hanswer : ∀ rows, (db.rows .browserAuthorizations).filter p = rows →
      Tx.Post ((match rows.map BrowserRow.awaitGoogle with
        | [] => (commit (.error .invalid) : Op (Except BrowserError (String × String)) Empty)
        | row :: _ => commit row.startSecrets) Empty.elim) db
        ⟨db.update .browserAuthorizations p .awaitGoogle, []⟩ fun r d =>
      (r = .error .invalid ∧ d = db) ∨ ∃ row ∈ db.rows .browserAuthorizations, p row = true ∧
        r = row.startSecrets ∧ d = db.update .browserAuthorizations p .awaitGoogle := by
    intro rows hhit
    cases rows with
    | nil =>
        have e : db.update .browserAuthorizations p .awaitGoogle = db :=
          Db.update_none _ _ _ _ fun r hr => by
            simpa using List.filter_eq_nil_iff.mp hhit r hr
        exact Or.inl ⟨rfl, e⟩
    | cons row rows =>
        have hrow : row ∈ (db.rows .browserAuthorizations).filter p :=
          hhit ▸ List.mem_cons_self
        obtain ⟨hmem, hp⟩ := List.mem_filter.mp hrow
        exact Or.inr ⟨row, hmem, hp, rfl, rfl⟩
  exact hanswer _ rfl

theorem cancelGoogle_run {id : Uuid} {state binding : String}
    {registry : Option ClientRegistry} {r : Except BrowserError DenialOutcome}
    (h : (cancelGoogle P t id state binding registry).tx.run db = (r, db')) :
    ((∃ e, r = .error e) ∧ db' = db) ∨
      ∃ row, (db.rows .browserAuthorizations).find?
          (BrowserRow.awaits P id state binding (t.now 0)) = some row ∧
        PolicyPassed P t registry row.toConsentRow [0, 2] ∧
        r = .ok ⟨row.redirectUri, row.downstreamState⟩ ∧
        db' = db.update .browserAuthorizations (fun r => r.id = id) .cancel := by
  refine Tx.run_of_post h ((post_lockOr ..).mpr ⟨fun row hrow => ?_,
    fun _ => Or.inl ⟨⟨_, rfl⟩, rfl⟩⟩)
  refine (post_checked ..).mpr ⟨fun _ hbefore => ?_, fun _ _ => Or.inl ⟨⟨_, rfl⟩, rfl⟩⟩
  refine (post_update ..).mpr ((post_checked ..).mpr ⟨fun _ hafter => ?_,
    fun _ _ => Or.inl ⟨⟨_, rfl⟩, rfl⟩⟩)
  exact Or.inr ⟨row, hrow, policyPassed_pair hbefore hafter, rfl, rfl⟩

theorem beginAuthenticated_run {session : ProviderSession}
    {pending : PendingAuthorizationGrant} {downstreamState oidcNonce : Option String}
    {allow : Bool} {r : Except BrowserError ConsentHandle}
    (h : (beginAuthenticated P t session pending downstreamState oidcNonce allow).tx.run db =
      (r, db')) :
    ((∃ e, r = .error e) ∧ db' = db) ∨
      ∃ s, findSession db session.id = some s ∧ s.active (t.now 0) = true ∧
        r = .ok ⟨t.uuid 0, t.secret 0⟩ ∧
        db' = db.insert .browserAuthorizations (.authenticated (t.uuid 0) (t.hash P 0) session.id
          (.of pending downstreamState oidcNonce allow (t.now 1)) (t.now 1)) := by
  refine Tx.run_of_post h ((post_lockOr ..).mpr ⟨fun s hs => ?_,
    fun _ => Or.inl ⟨⟨_, rfl⟩, rfl⟩⟩)
  refine (post_ensure ..).mpr ⟨fun hfresh => ?_, fun _ => Or.inl ⟨⟨_, rfl⟩, rfl⟩⟩
  have hactive : s.active (t.now 0) = true := by simpa [freshSession] using hfresh
  refine (post_checked ..).mpr ⟨fun _ _ => ?_, fun _ _ => Or.inl ⟨⟨_, rfl⟩, rfl⟩⟩
  refine (post_insert ..).mpr ((post_checked ..).mpr ⟨fun _ _ => ?_,
    fun _ _ => Or.inl ⟨⟨_, rfl⟩, rfl⟩⟩)
  exact Or.inr ⟨s, hs, hactive, rfl, rfl⟩

/-! ## 2. The callback -/

/-- The transaction `claim_callback` looks for. -/
def BrowserRow.claimable (P : Platform) (state binding : String) (r : BrowserRow) : Bool :=
  r.heldBy P state binding && r.stage = .awaitingGoogle

/-- **How a claim ends**: an expired transaction is marked, with an error. -/
theorem claimCallback_run {state binding : String}
    {r : Except BrowserError (String × String × String)}
    (h : (claimCallback P t state binding).tx.run db = (r, db')) :
    (r = .error .invalid ∧ db' = db) ∨
      ∃ row, (db.rows .browserAuthorizations).find? (BrowserRow.claimable P state binding) =
          some row ∧
        ((r = .error .database ∧ db' = db ∧
            (row.upstreamVerifier = none ∨ row.upstreamNonce = none)) ∨
          (row.expiresAt ≤ t.now 0 ∧ r = .error .invalid ∧
            db' = db.update .browserAuthorizations (fun r => r.id = row.id) .expireStart) ∨
          ∃ verifier nonce, row.upstreamVerifier = some verifier ∧
            row.upstreamNonce = some nonce ∧ r = .ok (t.secret 0, verifier, nonce) ∧
            db' = db.update .browserAuthorizations (fun r => r.id = row.id)
              (.claim (t.hash P 0))) := by
  have hnull : ∀ {a : Option String} {x : String}, nonNull a = .ok x → a = some x := by
    intro a x hx
    cases a with
    | none => cases hx
    | some a => cases hx; rfl
  have herror : ∀ {a : Option String} {e : BrowserError}, nonNull a = .error e →
      a = none ∧ e = .database := by
    intro a e hx
    cases a with
    | none => cases hx; exact ⟨rfl, rfl⟩
    | some a => cases hx
  refine Tx.run_of_post h ((post_lockOr ..).mpr ⟨fun row hrow => ?_,
    fun _ => Or.inl ⟨rfl, rfl⟩⟩)
  refine (post_checked ..).mpr ⟨fun verifier hv => ?_, fun e he => ?_⟩
  swap
  · obtain ⟨hnone, rfl⟩ := herror he
    exact Or.inr ⟨row, hrow, Or.inl ⟨rfl, rfl, Or.inl hnone⟩⟩
  refine (post_checked ..).mpr ⟨fun nonce hn => ?_, fun e he => ?_⟩
  swap
  · obtain ⟨hnone, rfl⟩ := herror he
    exact Or.inr ⟨row, hrow, Or.inl ⟨rfl, rfl, Or.inr hnone⟩⟩
  refine post_ite.mpr ⟨fun hexpired => ?_, fun hlive => ?_⟩
  · exact Or.inr ⟨row, hrow, Or.inr (Or.inl ⟨hexpired, rfl, rfl⟩)⟩
  · exact Or.inr ⟨row, hrow, Or.inr (Or.inr ⟨verifier, nonce, hnull hv, hnull hn, rfl, rfl⟩)⟩

/-- How a failure report ends: it marks every row of the claim and succeeds for one. -/
theorem failCallback_run {claim : String} {r : Except BrowserError Unit}
    (h : (failCallback P claim).tx.run db = (r, db')) :
    db' = db.update .browserAuthorizations (BrowserRow.claimedBy P claim) .fail ∧
      r = if ((db.rows .browserAuthorizations).filter (BrowserRow.claimedBy P claim)).length = 1
        then .ok () else .error .invalid := by
  refine Tx.run_of_post h ((post_update ..).mpr ?_)
  exact ⟨rfl, by rw [← List.length_map]; rfl⟩

theorem denyCallback_run {claim : String} {registry : ClientRegistry}
    {r : Except BrowserError DenialOutcome}
    (h : (denyCallback P t claim registry).tx.run db = (r, db')) :
    ((∃ e, r = .error e) ∧ db' = db) ∨
      ∃ row, (db.rows .browserAuthorizations).find? (BrowserRow.claimedBy P claim) = some row ∧
        PolicyPassed P t (some registry) row.toConsentRow [0, 2] ∧
        r = .ok ⟨row.redirectUri, row.downstreamState⟩ ∧
        db' = db.update .browserAuthorizations
          (fun r => r.claimHash = some (secretHash P claim)) .denyCallback := by
  refine Tx.run_of_post h ((post_lockOr ..).mpr ⟨fun row hrow => ?_,
    fun _ => Or.inl ⟨⟨_, rfl⟩, rfl⟩⟩)
  refine (post_ensure ..).mpr ⟨fun _ => ?_, fun _ => Or.inl ⟨⟨_, rfl⟩, rfl⟩⟩
  refine (post_checked ..).mpr ⟨fun _ hbefore => ?_, fun _ _ => Or.inl ⟨⟨_, rfl⟩, rfl⟩⟩
  refine (post_update ..).mpr ((post_checked ..).mpr ⟨fun _ hafter => ?_,
    fun _ _ => Or.inl ⟨⟨_, rfl⟩, rfl⟩⟩)
  exact Or.inr ⟨row, hrow, policyPassed_pair (validate_of_revalidate hbefore)
    (validate_of_revalidate hafter), rfl, rfl⟩

/-! ## 3. The login -/

/-- The user of an identity and the rows once it is there. -/
def foundOrCreated (t : Tape) (issuer subject : String) (db : Db) : Uuid × Db :=
  match findIdentity db issuer subject with
  | some user => (user, db)
  | none => (t.uuid 1, (db.insert .users ⟨t.uuid 1⟩).insert .externalIdentities
      ⟨issuer, subject, t.uuid 1⟩)

/-- The user of a verified identity and the rows with its profile. -/
def identified (t : Tape) (identity : VerifiedGoogleIdentity) (now : Time) (db : Db) :
    Uuid × Db :=
  let user := foundOrCreated t googleIssuer identity.subject db
  (user.1, user.2.upsert .userProfiles (.of user.1 identity now) fun r => .of r.userId identity
    now)

/-- The tables of sessions, grants and transactions do not know about identities. -/
theorem identified_rows {identity : VerifiedGoogleIdentity} {now : Time} {u : Table}
    (hu : u ∉ [Table.users, .externalIdentities, .userProfiles]) :
    (identified t identity now db).2.rows u = db.rows u := by
  simp only [List.mem_cons, List.not_mem_nil, or_false, not_or] at hu
  unfold identified foundOrCreated
  rw [Db.upsert_rows_ne _ _ _ hu.2.2]
  split
  · rfl
  · rw [Db.insert_rows_ne _ _ hu.2.1, Db.insert_rows_ne _ _ hu.1]

theorem post_findOrCreateUser {ρ : Type} {issuer subject : String} {k : Uuid → Tx schema ρ}
    {w : Work schema} {Q : ρ → Db → Prop} :
    (findOrCreateUser t issuer subject k).Post db w Q ↔
      (k (foundOrCreated t issuer subject w.db).1).Post db
        { w with db := (foundOrCreated t issuer subject w.db).2 } Q := by
  refine (post_select ..).trans ?_
  unfold foundOrCreated
  cases findIdentity w.db issuer subject with
  | some user => exact Iff.rfl
  | none => exact Iff.rfl

theorem post_upsertVerifiedGoogleIdentity {ρ : Type} {identity : VerifiedGoogleIdentity}
    {now : Time} {k : Uuid → Tx schema ρ} {w : Work schema} {Q : ρ → Db → Prop} :
    (upsertVerifiedGoogleIdentity t identity now k).Post db w Q ↔
      (k (identified t identity now w.db).1).Post db
        { w with db := (identified t identity now w.db).2 } Q := post_findOrCreateUser

theorem post_checkedStaged {ε α β : Type} {x : Except ε α} {k : α → Tx schema (Except ε β)}
    {w : Work schema} {Q : Except ε β → Db → Prop} :
    (checkedStaged x k).Post db w Q ↔
      (∀ a, x = .ok a → (k a).Post db w Q) ∧ ∀ e, x = .error e → Q (.error e) db := by
  cases x with
  | ok a => exact ⟨fun h => ⟨fun _ e => by cases e; exact h, fun _ e => by cases e⟩,
      fun h => h.1 a rfl⟩
  | error x => exact ⟨fun h => ⟨fun _ e => (by cases e), fun _ e => by cases e; exact h⟩,
      fun h => h.2 x rfl⟩

/-- The session of a login. -/
def loginSession (P : Platform) (t : Tape) (identity : VerifiedGoogleIdentity) (seconds : Nat)
    (user : Uuid) : SessionRow :=
  .start (t.uuid 0) (t.hash P 0) user identity.upstreamAuthTime (t.now 0) seconds

/-- The row `complete_callback` moves on. -/
def BrowserRow.completable (id : Uuid) (r : BrowserRow) : Bool :=
  r.id = id && r.stage = .callbackClaimed

/-- What a login leaves: the user, the identity and the profile, one session, and the
    transaction that waits for its consent. -/
def loggedInRows (P : Platform) (t : Tape) (identity : VerifiedGoogleIdentity) (seconds : Nat)
    (row : BrowserRow) (db : Db) : Db :=
  let user := identified t identity (t.now 0) db
  (user.2.insert .providerSessions (loginSession P t identity seconds user.1)).update
    .browserAuthorizations (BrowserRow.completable row.id) (.complete (t.uuid 0) (t.hash P 1))

/-- The request of a transaction, read again by its id, passes the policy of a call. -/
def BrowserRow.Passed (P : Platform) (t : Tape) (registry : Option ClientRegistry) (db : Db)
    (row : BrowserRow) (ks : List Nat) : Prop :=
  ∃ policyRow, (db.rows .browserAuthorizations).find? (fun r => r.id = row.id) =
    some policyRow ∧ PolicyPassed P t registry (BrowserRow.toConsentRow policyRow) ks

/-- **How a login ends**: nothing of it stays unless all of it does. -/
theorem completeCallback_run {claim : String} {identity : VerifiedGoogleIdentity}
    {lifetime : Duration} {registry : Option ClientRegistry}
    {r : Except BrowserError LoginCompletion}
    (h : (completeCallback P t claim identity lifetime registry).tx.run db = (r, db')) :
    ((∃ e, r = .error e) ∧ db' = db) ∨
      ∃ row, (db.rows .browserAuthorizations).find? (BrowserRow.claimedBy P claim) = some row ∧
        row.Passed P t registry db [0, 2] ∧
        ((row.expiresAt ≤ t.now 1 ∧ r = .error .invalid ∧
            db' = db.update .browserAuthorizations (fun r => r.id = row.id) .expireCallback) ∨
          ∃ seconds, boundedSeconds BrowserError.invalid lifetime (30 * 24 * 60 * 60) =
              .ok seconds ∧ row.Passed P t registry db [4, 6] ∧
            r = .ok ⟨⟨t.secret 0, t.uuid 0, (t.now 0).after seconds⟩, ⟨row.id, t.secret 1⟩⟩ ∧
            db' = loggedInRows P t identity seconds row db) := by
  refine Tx.run_of_post h ((post_checked ..).mpr ⟨fun seconds hseconds => ?_,
    fun _ _ => Or.inl ⟨⟨_, rfl⟩, rfl⟩⟩)
  refine (post_lockOr ..).mpr ⟨fun row hrow => ?_, fun _ => Or.inl ⟨⟨_, rfl⟩, rfl⟩⟩
  refine (post_lockOr ..).mpr ⟨fun policyRow hpolicy => ?_, fun _ => Or.inl ⟨⟨_, rfl⟩, rfl⟩⟩
  refine (post_checked ..).mpr ⟨fun _ h₀ => ?_, fun _ _ => Or.inl ⟨⟨_, rfl⟩, rfl⟩⟩
  refine (post_savepoint ..).mpr ((post_advisoryLock ..).mpr ?_)
  refine post_checkedStaged.mpr ⟨fun _ h₂ => ?_, fun _ _ => Or.inl ⟨⟨_, rfl⟩, rfl⟩⟩
  have hpassed : row.Passed P t registry db [0, 2] :=
    ⟨policyRow, hpolicy, policyPassed_pair h₀ h₂⟩
  refine post_upsertVerifiedGoogleIdentity.mpr ((post_insert ..).mpr ?_)
  refine post_ite.mpr ⟨fun hexpired => ?_, fun _ => ?_⟩
  · exact (post_rollbackToSavepoint ..).mpr
      (Or.inr ⟨row, hrow, hpassed, Or.inl ⟨hexpired, rfl, rfl⟩⟩)
  · refine post_checkedStaged.mpr ⟨fun _ h₄ => ?_, fun _ _ => Or.inl ⟨⟨_, rfl⟩, rfl⟩⟩
    refine (post_releaseSavepoint ..).mpr ((post_update ..).mpr ?_)
    refine (post_ensure ..).mpr ⟨fun _ => ?_, fun _ => Or.inl ⟨⟨_, rfl⟩, rfl⟩⟩
    refine (post_checked ..).mpr ⟨fun _ h₆ => ?_, fun _ _ => Or.inl ⟨⟨_, rfl⟩, rfl⟩⟩
    exact Or.inr ⟨row, hrow, hpassed,
      Or.inr ⟨seconds, hseconds, ⟨policyRow, hpolicy, policyPassed_pair h₄ h₆⟩, rfl, rfl⟩⟩

/-! ## 4. Consent -/

/-- The transaction a consent handle names. -/
def BrowserRow.consents (P : Platform) (handle : ConsentHandle) (session : Uuid)
    (r : BrowserRow) : Bool :=
  r.id = handle.transactionId && r.sessionId = some session &&
    r.csrfHash = some (secretHash P handle.csrf) && r.stage = .awaitingConsent

/-- **A consent was presented by the session of its transaction, in time.** -/
structure ConsentPresented (P : Platform) (t : Tape) (session : ProviderSession)
    (handle : ConsentHandle) (db : Db) (s : SessionRow) (row : BrowserRow) : Prop where
  lockedSession : findSession db session.id = some s
  locked : (db.rows .browserAuthorizations).find? (BrowserRow.consents P handle session.id) =
    some row
  active : s.active (t.now 0) = true
  unexpired : t.now 0 < row.expiresAt

theorem consentPresented {session : ProviderSession} {handle : ConsentHandle} {s : SessionRow}
    {row : BrowserRow}
    (hs : (db.rows .providerSessions).find? (fun s => s.id = session.id) = some s)
    (hrow : (db.rows .browserAuthorizations).find? (fun r => r.id = handle.transactionId &&
      r.sessionId = some session.id && r.csrfHash = some (secretHash P handle.csrf) &&
      r.stage = .awaitingConsent) = some row)
    (h : freshSession s (some row.expiresAt) (t.now 0) = true) :
    ConsentPresented P t session handle db s row := by
  have h : s.active (t.now 0) = true ∧ t.now 0 < row.expiresAt := by
    simpa [freshSession] using h
  exact ⟨hs, hrow, h.1, h.2⟩

/-- What an approval leaves. -/
def approvedRows (P : Platform) (t : Tape) (session : ProviderSession) (handle : ConsentHandle)
    (s : SessionRow) (row : BrowserRow) (grant : ValidatedAuthorizationGrant) (db : Db) : Db :=
  (db.insert .authorizationCodes (.issue (t.uuid 0) (t.hash P 0) session.id grant row.oidcNonce
    s.upstreamAuthTime (t.now 1) 60 (some s))).update .browserAuthorizations
      (fun r => r.id = handle.transactionId) .approve

theorem post_issueConsented {ρ : Type} {session : ProviderSession} {handle : ConsentHandle}
    {s : SessionRow} {row : BrowserRow} {grant : ValidatedAuthorizationGrant}
    {k : String → Tx schema ρ} {Q : ρ → Db → Prop} (hs : findSession db session.id = some s) :
    (issueConsented P t session handle s row grant k).Post db ⟨db, []⟩ Q ↔
      (k (t.secret 0)).Post db ⟨approvedRows P t session handle s row grant db, []⟩ Q := by
  refine ((post_insert ..).trans (post_update ..)).trans ?_
  have hs : findSession (Work.db ⟨db, []⟩) session.id = some s := hs
  rw [hs]
  exact Iff.rfl

/-- **How an approval ends.** -/
theorem approve_run {session : ProviderSession} {handle : ConsentHandle}
    {registry : ClientRegistry} {r : Except BrowserError ConsentOutcome}
    (h : (approve P t session handle registry).tx.run db = (r, db')) :
    ((∃ e, r = .error e) ∧ db' = db) ∨
      ∃ s row pending grant, ConsentPresented P t session handle db s row ∧
        revalidate P registry (t.instant 0) (t.instant 1) row.toConsentRow = .ok pending ∧
        pending.approve (t.instant 2) true = .ok grant ∧
        PolicyPassed P t (some registry) row.toConsentRow [0, 3] ∧
        r = .ok ⟨t.secret 0, row.redirectUri, row.downstreamState⟩ ∧
        db' = approvedRows P t session handle s row grant db := by
  refine Tx.run_of_post h ((post_lockOr ..).mpr ⟨fun s hs => ?_,
    fun _ => Or.inl ⟨⟨_, rfl⟩, rfl⟩⟩)
  refine (post_lockOr ..).mpr ⟨fun row hrow => ?_, fun _ => Or.inl ⟨⟨_, rfl⟩, rfl⟩⟩
  refine (post_ensure ..).mpr ⟨fun hfresh => ?_, fun _ => Or.inl ⟨⟨_, rfl⟩, rfl⟩⟩
  have hp := consentPresented hs hrow hfresh
  refine (post_checked ..).mpr ⟨fun pending hpending => ?_, fun _ _ => Or.inl ⟨⟨_, rfl⟩, rfl⟩⟩
  refine (post_checked ..).mpr ⟨fun grant hgrant => ?_, fun _ _ => Or.inl ⟨⟨_, rfl⟩, rfl⟩⟩
  refine (post_issueConsented hp.lockedSession).mpr ?_
  refine (post_checked ..).mpr ⟨fun _ hafter => ?_, fun _ _ => Or.inl ⟨⟨_, rfl⟩, rfl⟩⟩
  exact Or.inr ⟨s, row, pending, grant, hp, hpending, hgrant, policyPassed_pair
    (validate_of_revalidate hpending) (validate_of_revalidate hafter), rfl, rfl⟩

/-- **How an approval without a page ends.** -/
theorem approvePreAuthorized_run {session : ProviderSession} {handle : ConsentHandle}
    {registry : ClientRegistry} {r : Except BrowserError (Option ConsentOutcome)}
    (h : (approvePreAuthorized P t session handle registry).tx.run db = (r, db')) :
    ((∃ e, r = .error e) ∧ db' = db) ∨
      ∃ s row pending, ConsentPresented P t session handle db s row ∧
        revalidate P registry (t.instant 0) (t.instant 1) row.toConsentRow = .ok pending ∧
        ((r = .ok none ∧ db' = db) ∨
          ∃ grant, row.allowPreAuthorization = true ∧ registry.preAuthorizes pending = true ∧
            pending.approve (t.instant 2) true = .ok grant ∧
            PolicyPassed P t (some registry) row.toConsentRow [0, 3] ∧
            r = .ok (some ⟨t.secret 0, row.redirectUri, row.downstreamState⟩) ∧
            db' = approvedRows P t session handle s row grant db) := by
  refine Tx.run_of_post h ((post_lockOr ..).mpr ⟨fun s hs => ?_,
    fun _ => Or.inl ⟨⟨_, rfl⟩, rfl⟩⟩)
  refine (post_lockOr ..).mpr ⟨fun row hrow => ?_, fun _ => Or.inl ⟨⟨_, rfl⟩, rfl⟩⟩
  refine (post_ensure ..).mpr ⟨fun hfresh => ?_, fun _ => Or.inl ⟨⟨_, rfl⟩, rfl⟩⟩
  have hp := consentPresented hs hrow hfresh
  refine (post_checked ..).mpr ⟨fun pending hpending => ?_, fun _ _ => Or.inl ⟨⟨_, rfl⟩, rfl⟩⟩
  refine (post_ensure ..).mpr ⟨fun hallow => ?_,
    fun _ => Or.inr ⟨s, row, pending, hp, hpending, Or.inl ⟨rfl, rfl⟩⟩⟩
  rw [Bool.and_eq_true] at hallow
  refine (post_checked ..).mpr ⟨fun grant hgrant => ?_, fun _ _ => Or.inl ⟨⟨_, rfl⟩, rfl⟩⟩
  refine (post_issueConsented hp.lockedSession).mpr ?_
  refine (post_checked ..).mpr ⟨fun _ hafter => ?_, fun _ _ => Or.inl ⟨⟨_, rfl⟩, rfl⟩⟩
  refine (post_ensure ..).mpr ⟨fun _ => ?_, fun _ => Or.inl ⟨⟨_, rfl⟩, rfl⟩⟩
  refine (post_ensure ..).mpr ⟨fun _ => ?_, fun _ => Or.inl ⟨⟨_, rfl⟩, rfl⟩⟩
  exact Or.inr ⟨s, row, pending, hp, hpending,
    Or.inr ⟨grant, hallow.1, hallow.2, hgrant, policyPassed_pair
      (validate_of_revalidate hpending) (validate_of_revalidate hafter), rfl, rfl⟩⟩

/-- **How a denial ends.** -/
theorem deny_run {session : ProviderSession} {handle : ConsentHandle}
    {registry : Option ClientRegistry} {r : Except BrowserError DenialOutcome}
    (h : (deny P t session handle registry).tx.run db = (r, db')) :
    ((∃ e, r = .error e) ∧ db' = db) ∨
      ∃ s row, ConsentPresented P t session handle db s row ∧
        PolicyPassed P t registry row.toConsentRow [0, 2] ∧
        r = .ok ⟨row.redirectUri, row.downstreamState⟩ ∧
        db' = db.update .browserAuthorizations (fun r => r.id = handle.transactionId) .deny := by
  refine Tx.run_of_post h ((post_lockOr ..).mpr ⟨fun s hs => ?_,
    fun _ => Or.inl ⟨⟨_, rfl⟩, rfl⟩⟩)
  refine (post_lockOr ..).mpr ⟨fun row hrow => ?_, fun _ => Or.inl ⟨⟨_, rfl⟩, rfl⟩⟩
  refine (post_ensure ..).mpr ⟨fun hfresh => ?_, fun _ => Or.inl ⟨⟨_, rfl⟩, rfl⟩⟩
  refine (post_checked ..).mpr ⟨fun _ hbefore => ?_, fun _ _ => Or.inl ⟨⟨_, rfl⟩, rfl⟩⟩
  refine (post_update ..).mpr ((post_checked ..).mpr ⟨fun _ hafter => ?_,
    fun _ _ => Or.inl ⟨⟨_, rfl⟩, rfl⟩⟩)
  exact Or.inr ⟨s, row, consentPresented hs hrow hfresh, policyPassed_pair hbefore hafter, rfl,
    rfl⟩

/-- **How the consent page ends**: it shows a transaction and changes nothing. -/
theorem consentView_run {session : ProviderSession} {handle : ConsentHandle}
    {registry : ClientRegistry} {r : Except BrowserError ConsentView}
    (h : (consentView P t session handle registry).tx.run db = (r, db')) :
    db' = db ∧ ((∃ e, r = .error e) ∨
      ∃ s row, ConsentPresented P t session handle db s row ∧
        PolicyPassed P t (some registry) row.toConsentRow [0, 2] ∧ r.isOk = true) := by
  refine Tx.run_of_post h ((post_lockOr ..).mpr ⟨fun s hs => ?_,
    fun _ => ⟨rfl, Or.inl ⟨_, rfl⟩⟩⟩)
  refine (post_lockOr ..).mpr ⟨fun row hrow => ?_, fun _ => ⟨rfl, Or.inl ⟨_, rfl⟩⟩⟩
  refine (post_ensure ..).mpr ⟨fun hfresh => ?_, fun _ => ⟨rfl, Or.inl ⟨_, rfl⟩⟩⟩
  refine (post_checked ..).mpr ⟨fun _ hbefore => ?_, fun _ _ => ⟨rfl, Or.inl ⟨_, rfl⟩⟩⟩
  refine (post_checked ..).mpr ⟨fun _ _ => ?_, fun _ _ => ⟨rfl, Or.inl ⟨_, rfl⟩⟩⟩
  refine (post_select ..).mpr ((post_checked ..).mpr ⟨fun _ hafter => ?_,
    fun _ _ => ⟨rfl, Or.inl ⟨_, rfl⟩⟩⟩)
  exact ⟨rfl, Or.inr ⟨s, row, consentPresented hs hrow hfresh, policyPassed_pair
    (validate_of_revalidate hbefore) (validate_of_revalidate hafter), rfl⟩⟩

end Eri
