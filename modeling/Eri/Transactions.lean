/-
  File:      Eri/Transactions.lean
  Subject:   Browser transactions: one path, one outcome, and which secrets are there when.

  * `Move` -- the eleven moves of a transaction: the call, what its caller shows, the answer
    and the new columns; `Move.next`: each is one edge of `Stage.Next`;
  * `BrowserChange`, `browserChange` -- what one call does to the transactions;
  * `Products` -- a login makes a session, an approval a code;
  * `Moves`, `Moved` -- a call of a run moved a transaction; `moved_once`, `decided_once`;
  * **`transactions_once`**, **`transactions_secrets`**.
-/
import Eri.Atomicity

namespace Eri

open Sql

variable {P : Platform} {M : Machine schema Request Reply} {a b db db' : Db} {c : Request}

/-! ## 1. Moves -/

/-- The stage a reply reports to the caller. -/
def Reply.reached : Reply → Option Stage
  | .started (.ok _) => some .awaitingGoogle
  | .claimed (.ok _) => some .callbackClaimed
  | .completed (.ok _) => some .awaitingConsent
  | .approved (.ok _) | .preApproved (.ok (some _)) => some .approved
  | .denied (.ok _) => some .denied
  | .failed (.ok _) => some .failed
  | _ => none

/-- **The moves of a transaction**, and what the caller shows for each of them: the state and
    the browser binding, the claim, or the session and the CSRF secret the row stores. -/
inductive Move (P : Platform) (t : Tape) (row : BrowserRow) :
    Call → Reply → (BrowserRow → BrowserRow) → Prop where
  | start {state binding : String} {x : String × String}
      (hheld : row.heldBy P state binding = true) (hstage : row.stage = .awaitingStart)
      (hlive : t.now 0 < row.expiresAt) (hsecrets : row.startSecrets = .ok x) :
      Move P t row (.startGoogle row.id state binding) (.started (.ok x)) .awaitGoogle
  | cancel {state binding : String} {registry : Option ClientRegistry}
      (hheld : row.heldBy P state binding = true) (hstage : row.stage = .awaitingStart)
      (hlive : t.now 0 < row.expiresAt) :
      Move P t row (.cancelGoogle row.id state binding registry)
        (.denied (.ok ⟨row.redirectUri, row.downstreamState⟩)) .cancel
  | claim {state binding verifier nonce : String}
      (hheld : row.heldBy P state binding = true) (hstage : row.stage = .awaitingGoogle)
      (hverifier : row.upstreamVerifier = some verifier)
      (hnonce : row.upstreamNonce = some nonce) :
      Move P t row (.claimCallback state binding)
        (.claimed (.ok (t.secret 0, verifier, nonce))) (.claim (t.hash P 0))
  | expireStart {state binding : String}
      (hheld : row.heldBy P state binding = true) (hstage : row.stage = .awaitingGoogle)
      (hlate : row.expiresAt ≤ t.now 0) :
      Move P t row (.claimCallback state binding) (.claimed (.error .invalid)) .expireStart
  | fail {claim : String} (hclaim : row.claimedBy P claim = true) :
      Move P t row (.failCallback claim) (.failed (.ok ())) .fail
  | denyCallback {claim : String} {registry : ClientRegistry}
      (hclaim : row.claimedBy P claim = true) :
      Move P t row (.denyCallback claim registry)
        (.denied (.ok ⟨row.redirectUri, row.downstreamState⟩)) .denyCallback
  | complete {claim : String} {identity : VerifiedGoogleIdentity} {lifetime : Duration}
      {registry : Option ClientRegistry} {seconds : Nat}
      (hclaim : row.claimedBy P claim = true) :
      Move P t row (.completeCallback claim identity lifetime registry)
        (.completed (.ok ⟨⟨t.secret 0, t.uuid 0, (t.now 0).after seconds⟩,
          ⟨row.id, t.secret 1⟩⟩)) (.complete (t.uuid 0) (t.hash P 1))
  | expireCallback {claim : String} {identity : VerifiedGoogleIdentity} {lifetime : Duration}
      {registry : Option ClientRegistry} (hclaim : row.claimedBy P claim = true)
      (hlate : row.expiresAt ≤ t.now 1) :
      Move P t row (.completeCallback claim identity lifetime registry)
        (.completed (.error .invalid)) .expireCallback
  | approve {session : ProviderSession} {handle : ConsentHandle} {registry : ClientRegistry}
      (hconsents : row.consents P handle session.id = true) :
      Move P t row (.approve session handle registry)
        (.approved (.ok ⟨t.secret 0, row.redirectUri, row.downstreamState⟩)) .approve
  | approvePreAuthorized {session : ProviderSession} {handle : ConsentHandle}
      {registry : ClientRegistry} (hconsents : row.consents P handle session.id = true)
      (hallow : row.allowPreAuthorization = true) :
      Move P t row (.approvePreAuthorized session handle registry)
        (.preApproved (.ok (some ⟨t.secret 0, row.redirectUri, row.downstreamState⟩))) .approve
  | deny {session : ProviderSession} {handle : ConsentHandle}
      {registry : Option ClientRegistry} (hconsents : row.consents P handle session.id = true) :
      Move P t row (.deny session handle registry)
        (.denied (.ok ⟨row.redirectUri, row.downstreamState⟩)) .deny

theorem consents_stage {handle : ConsentHandle} {session : Uuid} {row : BrowserRow}
    (h : row.consents P handle session = true) : row.stage = .awaitingConsent := by
  unfold BrowserRow.consents at h
  simp only [Bool.and_eq_true, decide_eq_true_eq] at h
  exact h.2

/-- **Every move is one edge.** -/
theorem Move.next {t : Tape} {row : BrowserRow} {call : Call} {r : Reply}
    {set : BrowserRow → BrowserRow} (h : Move P t row call r set) :
    Stage.Next row.stage (set row).stage := by
  cases h with
  | start _ hs => exact hs ▸ .start
  | cancel _ hs => exact hs ▸ .cancel
  | claim _ hs => exact hs ▸ .claim
  | expireStart _ hs => exact hs ▸ .expireStart
  | fail hc => exact claimedBy_stage hc ▸ .fail
  | denyCallback hc => exact claimedBy_stage hc ▸ .denyCallback
  | complete hc => exact claimedBy_stage hc ▸ .complete
  | expireCallback hc => exact claimedBy_stage hc ▸ .expireCallback
  | approve hc => exact consents_stage hc ▸ .approve
  | approvePreAuthorized hc => exact consents_stage hc ▸ .approve
  | deny hc => exact consents_stage hc ▸ .deny

/-- A move that is reported is to the stage it is reported for. -/
theorem Move.reached {t : Tape} {row : BrowserRow} {call : Call} {r : Reply}
    {set : BrowserRow → BrowserRow} (h : Move P t row call r set) {s : Stage}
    (hs : r.reached = some s) : (set row).stage = s := by
  cases h <;> cases hs <;> rfl

theorem Move.id {t : Tape} {row : BrowserRow} {call : Call} {r : Reply}
    {set : BrowserRow → BrowserRow} (h : Move P t row call r set) : (set row).id = row.id := by
  cases h <;> rfl

/-- No move changes what was asked for. -/
theorem Move.consent {t : Tape} {row : BrowserRow} {call : Call} {r : Reply}
    {set : BrowserRow → BrowserRow} (h : Move P t row call r set) :
    (set row).toConsentRow = row.toConsentRow := by
  cases h <;> rfl

/-! ## 2. One call -/

/-- A transaction as it begins. -/
inductive Begins (P : Platform) (t : Tape) : Call → BrowserRow → Prop where
  | google {pending : PendingAuthorizationGrant} {state nonce : Option String} {allow : Bool} :
      Begins P t (.beginGoogle pending state nonce allow)
        (.google (t.uuid 0) (t.hash P 0) (t.hash P 1) (t.secret 2) (t.secret 3)
          (.of pending state nonce allow (t.now 0)) (t.now 0))
  | authenticated {session : ProviderSession} {pending : PendingAuthorizationGrant}
      {state nonce : Option String} {allow : Bool} :
      Begins P t (.beginAuthenticated session pending state nonce allow)
        (.authenticated (t.uuid 0) (t.hash P 0) session.id
          (.of pending state nonce allow (t.now 1)) (t.now 1))

/-- **What one call does to the transactions.** -/
inductive BrowserChange (P : Platform) (c : Request) (a : Db) : Reply → Db → Prop where
  | same {r : Reply} {b : Db} (hr : r.reached = none)
      (hrows : b.rows .browserAuthorizations = a.rows .browserAuthorizations) :
      BrowserChange P c a r b
  | begins {r : Reply} {b : Db} (hr : r.reached = none) (row : BrowserRow)
      (hnew : Begins P c.tape c.call row)
      (hrows : b.rows .browserAuthorizations = a.rows .browserAuthorizations ++ [row]) :
      BrowserChange P c a r b
  | move {r : Reply} {b : Db} (row : BrowserRow) (hrow : row ∈ a.rows .browserAuthorizations)
      (set : BrowserRow → BrowserRow) (hmove : Move P c.tape row c.call r set)
      (hrows : b.rows .browserAuthorizations =
        (a.update .browserAuthorizations (fun r => r.id = row.id) set).rows
          .browserAuthorizations) : BrowserChange P c a r b

/-- An update by a name of one row is an update by its id. -/
theorem update_one {p : BrowserRow → Bool} {set : BrowserRow → BrowserRow} {row : BrowserRow}
    {n : Name} (hI : (layout P).Integrity db) (hrow : row ∈ db.rows .browserAuthorizations)
    (hp : p row = true) (hn : ∀ r, p r = true → n ∈ Row.names (t := .browserAuthorizations) r) :
    db.update .browserAuthorizations p set =
      db.update .browserAuthorizations (fun r => r.id = row.id) set := by
  refine Db.update_congr db .browserAuthorizations set fun r hr => ?_
  by_cases hid : BrowserRow.id r = row.id
  · have e : r = row := same_key hI hr hrow hid
    rw [e, hp]
    simp
  · have hno : p r ≠ true := fun hpr =>
      hid (congrArg BrowserRow.id (hI.unique hr hrow (hn r hpr) (hn row hp)))
    simp [hid, hno]

theorem awaits_iff {id : Uuid} {state binding : String} {now : Time} {row : BrowserRow}
    (h : row.awaits P id state binding now = true) :
    row.id = id ∧ row.heldBy P state binding = true ∧ row.stage = .awaitingStart ∧
      now < row.expiresAt := by
  unfold BrowserRow.awaits at h
  simp only [Bool.and_eq_true, decide_eq_true_eq] at h
  exact ⟨h.1.1.1, h.1.1.2, h.1.2, h.2⟩

theorem claimable_iff {state binding : String} {row : BrowserRow}
    (h : row.claimable P state binding = true) :
    row.heldBy P state binding = true ∧ row.stage = .awaitingGoogle := by
  unfold BrowserRow.claimable at h
  simp only [Bool.and_eq_true, decide_eq_true_eq] at h
  exact h

/-- A transaction that waits to start has the secrets Google is asked with. -/
theorem startSecrets_ok {row : BrowserRow} (h : row.Secrets) (hs : row.stage = .awaitingStart) :
    ∃ x, row.startSecrets = .ok x := by
  obtain ⟨nonce, hnonce⟩ := Option.isSome_iff_exists.mp (h.upstream (Or.inl hs)).1
  obtain ⟨verifier, hverifier⟩ := Option.isSome_iff_exists.mp (h.verifier.mpr (Or.inl hs))
  exact ⟨(nonce, verifier), by simp [BrowserRow.startSecrets, hnonce, hverifier, nonNull]; rfl⟩

theorem consents_id {handle : ConsentHandle} {session : Uuid} {row : BrowserRow}
    (h : row.consents P handle session = true) : row.id = handle.transactionId := by
  unfold BrowserRow.consents at h
  simp only [Bool.and_eq_true, decide_eq_true_eq] at h
  exact h.1.1.1

/-- The claims of a failure report are one transaction, or none. -/
theorem failCallback_change {claim : String} {r : Except BrowserError Unit}
    (hI : (layout P).Integrity db) (h : (failCallback P claim).tx.run db = (r, db')) :
    ((∃ e, r = .error e) ∧ db' = db) ∨
      ∃ row ∈ db.rows .browserAuthorizations, BrowserRow.claimedBy P claim row = true ∧
        r = .ok () ∧ db' = db.update .browserAuthorizations (fun r => r.id = row.id) .fail := by
  obtain ⟨rfl, hr⟩ := failCallback_run h
  cases hfilter : (db.rows .browserAuthorizations).filter (BrowserRow.claimedBy P claim) with
  | nil =>
      rw [hfilter] at hr
      refine Or.inl ⟨⟨_, hr⟩, Db.update_none _ _ _ _ fun x hx => ?_⟩
      simpa using List.filter_eq_nil_iff.mp hfilter x hx
  | cons row rows =>
      obtain ⟨hmem, hclaim⟩ := List.mem_filter.mp (hfilter ▸ List.mem_cons_self)
      have hone : (db.rows .browserAuthorizations).filter (BrowserRow.claimedBy P claim) =
          [row] := hI.filter (p := BrowserRow.claimedBy P claim)
        (n := .hash (secretHash P claim)) (fun x hx => claimedBy_name hx) hmem hclaim
      rw [hone] at hr
      exact Or.inr ⟨row, hmem, hclaim, hr, update_one hI hmem hclaim fun x hx =>
        claimedBy_name hx⟩

/-- **Every call makes one of the changes.** -/
theorem browserChange {r : Reply} (hgood : (contract P).Good c db)
    (h : (program P c).run db = (r, db')) : BrowserChange P c db r db' := by
  have hI := hgood.inv
  have hframe : r.reached = none → Table.browserAuthorizations ∉ c.call.writes →
      BrowserChange P c db r db' := fun hr hw => by
    have hsame := program_frame (P := P) hw db
    rw [h] at hsame
    exact .same hr hsame
  obtain ⟨call, t⟩ := c
  cases call with
  | beginGoogle pending downstreamState oidcNonce allow =>
      obtain ⟨x, hx, rfl⟩ := run_of_map h
      rcases beginGoogle_run hx with ⟨_, rfl⟩ | ⟨_, rfl⟩
      · exact .same rfl rfl
      · exact .begins rfl _ .google (Db.insert_rows_self ..)
  | beginAuthenticated session pending downstreamState oidcNonce allow =>
      obtain ⟨x, hx, rfl⟩ := run_of_map h
      rcases beginAuthenticated_run hx with ⟨_, rfl⟩ | ⟨_, _, _, _, rfl⟩
      · exact .same rfl rfl
      · exact .begins rfl _ .authenticated (Db.insert_rows_self ..)
  | startGoogle id state binding =>
      obtain ⟨x, hx, rfl⟩ := run_of_map h
      rcases startGoogle_run hx with ⟨rfl, rfl⟩ | ⟨row, hrow, hawaits, rfl, rfl⟩
      · exact .same rfl rfl
      · obtain ⟨rfl, hheld, hstage, hlive⟩ := awaits_iff hawaits
        obtain ⟨x, hx⟩ := startSecrets_ok (hI.ok .browserAuthorizations row hrow).secrets hstage
        rw [hx]
        refine .move row hrow _ (.start hheld hstage hlive hx) ?_
        rw [update_one (n := .id row.id) hI hrow hawaits fun y hy => ?_]
        rw [← (awaits_iff hy).1]
        exact List.mem_cons_self
  | cancelGoogle id state binding registry =>
      obtain ⟨x, hx, rfl⟩ := run_of_map h
      rcases cancelGoogle_run hx with ⟨⟨e, rfl⟩, rfl⟩ | ⟨row, hrow, _, rfl, rfl⟩
      · exact .same rfl rfl
      · obtain ⟨rfl, hheld, hstage, hlive⟩ := awaits_iff (List.find?_some hrow)
        exact .move row (find_mem (t := .browserAuthorizations) hrow) _
          (.cancel hheld hstage hlive) rfl
  | claimCallback state binding =>
      obtain ⟨x, hx, rfl⟩ := run_of_map h
      rcases claimCallback_run hx with ⟨rfl, rfl⟩ | ⟨row, hrow, hend⟩
      · exact .same rfl rfl
      have hmem := find_mem (t := .browserAuthorizations) hrow
      obtain ⟨hheld, hstage⟩ := claimable_iff (List.find?_some hrow)
      rcases hend with ⟨rfl, rfl, _⟩ | ⟨hlate, rfl, rfl⟩ | ⟨verifier, nonce, hv, hn, rfl, rfl⟩
      · exact .same rfl rfl
      · exact .move row hmem _ (.expireStart hheld hstage hlate) rfl
      · exact .move row hmem _ (.claim hheld hstage hv hn) rfl
  | failCallback claim =>
      obtain ⟨x, hx, rfl⟩ := run_of_map h
      rcases failCallback_change hI hx with ⟨⟨e, rfl⟩, rfl⟩ | ⟨row, hmem, hclaim, rfl, rfl⟩
      · exact .same rfl rfl
      · exact .move row hmem _ (.fail hclaim) rfl
  | denyCallback claim registry =>
      obtain ⟨x, hx, rfl⟩ := run_of_map h
      rcases denyCallback_run hx with ⟨⟨e, rfl⟩, rfl⟩ | ⟨row, hrow, _, rfl, rfl⟩
      · exact .same rfl rfl
      · have hmem := find_mem (t := .browserAuthorizations) hrow
        have hclaim : row.claimedBy P claim = true := List.find?_some hrow
        have hhash : decide (row.claimHash = some (secretHash P claim)) = true := by
          unfold BrowserRow.claimedBy at hclaim
          rw [Bool.and_eq_true] at hclaim
          exact hclaim.1
        refine .move row hmem _ (.denyCallback hclaim) ?_
        rw [update_one (n := .hash (secretHash P claim)) hI hmem hhash fun y hy => ?_]
        exact BrowserRow.mem_names.mpr (Or.inr ⟨_, Or.inr (of_decide_eq_true hy), rfl⟩)
  | completeCallback claim identity lifetime registry =>
      obtain ⟨x, hx, rfl⟩ := run_of_map h
      rcases completeCallback_run hx with ⟨⟨e, rfl⟩, rfl⟩ | ⟨row, hrow, _, hend⟩
      · exact .same rfl rfl
      have hmem := find_mem (t := .browserAuthorizations) hrow
      have hclaim : row.claimedBy P claim = true := List.find?_some hrow
      rcases hend with ⟨hlate, rfl, rfl⟩ | ⟨seconds, _, _, rfl, rfl⟩
      · exact .move row hmem _ (.expireCallback hclaim hlate) rfl
      · refine .move row hmem _ (.complete hclaim) ?_
        unfold loggedInRows
        have hrows : ((identified t identity (t.now 0) db).2.insert .providerSessions
            (loginSession P t identity seconds (identified t identity (t.now 0) db).1)).rows
            .browserAuthorizations = db.rows .browserAuthorizations := by
          rw [Db.insert_rows_ne _ _ (by decide), identified_rows (by simp)]
        rw [Db.update_rows_self, hrows, ← Db.update_rows_self,
          update_one (n := .id row.id) hI hmem ?_ fun y hy => ?_]
        · simp [BrowserRow.completable, claimedBy_stage hclaim]
        · unfold BrowserRow.completable at hy
          rw [Bool.and_eq_true] at hy
          rw [← of_decide_eq_true hy.1]
          exact List.mem_cons_self
  | approve session handle registry =>
      obtain ⟨x, hx, rfl⟩ := run_of_map h
      rcases approve_run hx with
        ⟨⟨e, rfl⟩, rfl⟩ | ⟨s, row, pending, grant, hp, _, _, _, rfl, rfl⟩
      · exact .same rfl rfl
      · have hconsents : row.consents P handle session.id = true := List.find?_some hp.locked
        refine .move row (find_mem (t := .browserAuthorizations) hp.locked) _
          (.approve hconsents) ?_
        unfold approvedRows
        rw [consents_id hconsents, Db.update_rows_self, Db.update_rows_self,
          Db.insert_rows_ne _ _ (by decide)]
  | approvePreAuthorized session handle registry =>
      obtain ⟨x, hx, rfl⟩ := run_of_map h
      rcases approvePreAuthorized_run hx with ⟨⟨e, rfl⟩, rfl⟩ | ⟨s, row, pending, hp, _, hend⟩
      · exact .same rfl rfl
      rcases hend with ⟨rfl, rfl⟩ | ⟨grant, hallow, _, _, _, rfl, rfl⟩
      · exact .same rfl rfl
      · have hconsents : row.consents P handle session.id = true := List.find?_some hp.locked
        refine .move row (find_mem (t := .browserAuthorizations) hp.locked) _
          (.approvePreAuthorized hconsents hallow) ?_
        unfold approvedRows
        rw [consents_id hconsents, Db.update_rows_self, Db.update_rows_self,
          Db.insert_rows_ne _ _ (by decide)]
  | deny session handle registry =>
      obtain ⟨x, hx, rfl⟩ := run_of_map h
      rcases deny_run hx with ⟨⟨e, rfl⟩, rfl⟩ | ⟨s, row, hp, _, rfl, rfl⟩
      · exact .same rfl rfl
      · have hconsents : row.consents P handle session.id = true := List.find?_some hp.locked
        refine .move row (find_mem (t := .browserAuthorizations) hp.locked) _
          (.deny hconsents) ?_
        rw [consents_id hconsents]
  | _ =>
      obtain ⟨x, _, rfl⟩ := run_of_map h
      exact hframe rfl (by simp [Call.writes])

/-! ## 3. What a move leaves in other tables -/

/-- **A login makes one session, an approval one code**, any other move neither. -/
structure Products (a b : Db) (row : BrowserRow) : Prop where
  noSession : row.stage ≠ .awaitingConsent →
    b.rows .providerSessions = a.rows .providerSessions
  session : row.stage = .awaitingConsent → ∃ s : SessionRow, row.sessionId = some s.id ∧
    b.rows .providerSessions = a.rows .providerSessions ++ [s]
  noCode : row.stage ≠ .approved → b.rows .authorizationCodes = a.rows .authorizationCodes
  code : row.stage = .approved → ∃ code : AuthorizationCodeRow,
    row.sessionId = some code.sessionId ∧
    b.rows .authorizationCodes = a.rows .authorizationCodes ++ [code]

theorem consents_session {handle : ConsentHandle} {session : Uuid} {row : BrowserRow}
    (h : row.consents P handle session = true) : row.sessionId = some session := by
  unfold BrowserRow.consents at h
  simp only [Bool.and_eq_true, decide_eq_true_eq] at h
  exact h.1.1.2

theorem approvedRows_products {t : Tape} {session : ProviderSession} {handle : ConsentHandle}
    {s : SessionRow} {row : BrowserRow} {grant : ValidatedAuthorizationGrant}
    (h : row.consents P handle session.id = true) :
    Products db (approvedRows P t session handle s row grant db) row.approve := by
  have hcodes : (approvedRows P t session handle s row grant db).rows .authorizationCodes =
      db.rows .authorizationCodes ++ [.issue (t.uuid 0) (t.hash P 0) session.id grant
        row.oidcNonce s.upstreamAuthTime (t.now 1) 60 (some s)] := by
    unfold approvedRows
    rw [Db.update_rows_ne _ _ _ (by decide), Db.insert_rows_self]
  have hsessions : (approvedRows P t session handle s row grant db).rows .providerSessions =
      db.rows .providerSessions := by
    unfold approvedRows
    rw [Db.update_rows_ne _ _ _ (by decide), Db.insert_rows_ne _ _ (by decide)]
  have hsession : row.sessionId = some session.id := consents_session h
  exact
    { noSession := fun _ => hsessions
      session := fun e => (by cases e)
      noCode := fun hne => absurd rfl hne
      code := fun _ => ⟨.issue (t.uuid 0) (t.hash P 0) session.id grant row.oidcNonce
        s.upstreamAuthTime (t.now 1) 60 (some s), hsession, hcodes⟩ }

theorem loggedInRows_products {t : Tape} {identity : VerifiedGoogleIdentity} {seconds : Nat}
    {row row' : BrowserRow} :
    Products db (loggedInRows P t identity seconds row' db)
      (row.complete (t.uuid 0) (t.hash P 1)) := by
  have hsessions : (loggedInRows P t identity seconds row' db).rows .providerSessions =
      db.rows .providerSessions ++
        [loginSession P t identity seconds (identified t identity (t.now 0) db).1] := by
    unfold loggedInRows
    rw [Db.update_rows_ne _ _ _ (by decide), Db.insert_rows_self, identified_rows (by simp)]
  have hcodes : (loggedInRows P t identity seconds row' db).rows .authorizationCodes =
      db.rows .authorizationCodes := by
    unfold loggedInRows
    rw [Db.update_rows_ne _ _ _ (by decide), Db.insert_rows_ne _ _ (by decide),
      identified_rows (by simp)]
  exact
    { noSession := fun hne => absurd rfl hne
      session := fun _ => ⟨loginSession P t identity seconds
        (identified t identity (t.now 0) db).1, rfl, hsessions⟩
      noCode := fun _ => hcodes
      code := fun e => (by cases e) }

/-- A handle names one transaction. -/
theorem consents_unique {handle : ConsentHandle} {session : Uuid} {row row' : BrowserRow}
    (hI : (layout P).Integrity db) (hrow : row ∈ db.rows .browserAuthorizations)
    (h : row.consents P handle session = true)
    (hfind : (db.rows .browserAuthorizations).find? (BrowserRow.consents P handle session) =
      some row') : row' = row := by
  have hid : row'.id = row.id :=
    (consents_id (List.find?_some hfind :)).trans (consents_id h).symm
  exact same_key hI (find_mem (t := .browserAuthorizations) hfind) hrow hid

theorem move_products {r : Reply} {row : BrowserRow} {set : BrowserRow → BrowserRow}
    (hI : (layout P).Integrity db) (hrow : row ∈ db.rows .browserAuthorizations)
    (h : (program P c).run db = (r, db')) (hm : Move P c.tape row c.call r set) :
    Products db db' (set row) := by
  have hframe : Table.providerSessions ∉ c.call.writes →
      Table.authorizationCodes ∉ c.call.writes →
      (set row).stage ≠ .awaitingConsent → (set row).stage ≠ .approved →
      Products db db' (set row) := fun hs hc hlogin happrove => by
    have hsame := program_frame (P := P) hs db
    have hsame' := program_frame (P := P) hc db
    rw [h] at hsame hsame'
    exact ⟨fun _ => hsame, fun e => absurd e hlogin, fun _ => hsame',
      fun e => absurd e happrove⟩
  obtain ⟨call, t⟩ := c
  cases hm with
  | complete hclaim =>
      obtain ⟨x, hx, hr⟩ := run_of_map h
      cases hr
      rcases completeCallback_run hx with ⟨⟨e, he⟩, _⟩ | ⟨row', hrow', _, hend⟩
      · cases he
      rcases hend with ⟨_, he, _⟩ | ⟨seconds, _, _, _, rfl⟩
      · cases he
      exact loggedInRows_products
  | expireCallback hclaim hlate =>
      obtain ⟨x, hx, hr⟩ := run_of_map h
      cases hr
      rcases completeCallback_run hx with ⟨_, rfl⟩ | ⟨row', hrow', _, hend⟩
      · exact ⟨fun _ => rfl, fun e => (by cases e), fun _ => rfl, fun e => (by cases e)⟩
      rcases hend with ⟨_, _, rfl⟩ | ⟨seconds, _, _, he, _⟩
      · exact ⟨fun _ => Db.update_rows_ne _ _ _ (by decide), fun e => (by cases e),
          fun _ => Db.update_rows_ne _ _ _ (by decide), fun e => (by cases e)⟩
      · cases he
  | approve hconsents =>
      obtain ⟨x, hx, hr⟩ := run_of_map h
      cases hr
      rcases approve_run hx with
        ⟨⟨e, he⟩, _⟩ | ⟨s, row', _, grant, hp, _, _, _, _, rfl⟩
      · cases he
      · rw [consents_unique hI hrow hconsents hp.locked]
        exact approvedRows_products hconsents
  | approvePreAuthorized hconsents hallow =>
      obtain ⟨x, hx, hr⟩ := run_of_map h
      cases hr
      rcases approvePreAuthorized_run hx with ⟨⟨e, he⟩, _⟩ | ⟨s, row', _, hp, _, hend⟩
      · cases he
      rcases hend with ⟨he, _⟩ | ⟨grant, _, _, _, _, _, rfl⟩
      · cases he
      · rw [consents_unique hI hrow hconsents hp.locked]
        exact approvedRows_products hconsents
  | _ =>
      exact hframe (by simp [Call.writes]) (by simp [Call.writes]) (fun e => (by cases e))
        fun e => (by cases e)

/-! ## 4. Runs -/

/-- The call of `e` moved `row` on to `row'`. -/
def Moves (P : Platform) (e : Entry) (row row' : BrowserRow) : Prop :=
  row ∈ e.before.rows .browserAuthorizations ∧ row' ∈ e.after.rows .browserAuthorizations ∧
    ∃ set, row' = set row ∧ Move P e.call.tape row e.call.call e.reply set

/-- The call of `e` moved the transaction `id` to the stage `s`. -/
def Moved (P : Platform) (e : Entry) (id : Uuid) (s : Stage) : Prop :=
  ∃ row row', Moves P e row row' ∧ row.id = id ∧ row'.stage = s

variable {e e' : Entry} {id : Uuid} {s s' : Stage}

theorem entry_browser (h : Reachable P M) (he : e ∈ M.log) :
    BrowserChange P e.call e.before e.reply e.after :=
  browserChange (reachable_entry (lawful P) h he).1 (reachable_entry (lawful P) h he).2

/-- The row a move leaves is stored. -/
theorem moved_mem {row : BrowserRow} {set : BrowserRow → BrowserRow}
    (hrow : row ∈ a.rows .browserAuthorizations)
    (hrows : b.rows .browserAuthorizations =
      (a.update .browserAuthorizations (fun r => r.id = row.id) set).rows
        .browserAuthorizations) : set row ∈ b.rows .browserAuthorizations := by
  rw [hrows, Db.update_rows_self]
  exact List.mem_map.mpr ⟨row, hrow, by simp⟩

/-- **A success is a move** to the stage it reports. -/
theorem reached_moves (h : Reachable P M) (he : e ∈ M.log) (hr : e.reply.reached = some s) :
    ∃ row row', Moves P e row row' ∧ row'.stage = s := by
  cases entry_browser h he with
  | same hnone => rw [hnone] at hr; cases hr
  | begins hnone => rw [hnone] at hr; cases hr
  | move row hrow set hmove hrows =>
      exact ⟨row, set row, ⟨hrow, moved_mem hrow hrows, set, rfl, hmove⟩, hmove.reached hr⟩

/-- **Where the rows after a call come from.** -/
theorem row_origin {row' : BrowserRow} (h : Reachable P M) (he : e ∈ M.log)
    (hrow' : row' ∈ e.after.rows .browserAuthorizations) :
    row' ∈ e.before.rows .browserAuthorizations ∨ Begins P e.call.tape e.call.call row' ∨
      ∃ row, Moves P e row row' := by
  have hI := (reachable_entry (lawful P) h he).1.inv
  cases entry_browser h he with
  | same _ hrows => exact Or.inl (hrows ▸ hrow')
  | begins _ row hnew hrows =>
      rw [hrows] at hrow'
      rcases List.mem_append.mp hrow' with hold | hnew'
      · exact Or.inl hold
      · rw [List.mem_singleton] at hnew'
        exact Or.inr (Or.inl (hnew' ▸ hnew))
  | move row hrow set hmove hrows =>
      have hmem := hrow'
      rw [hrows, Db.update_rows_self] at hmem
      obtain ⟨x, hx, e'⟩ := List.mem_map.mp hmem
      by_cases hid : x.id = row.id
      · have hsame : x = row := same_key hI hx hrow hid
        rw [if_pos (decide_eq_true hid), hsame] at e'
        exact Or.inr (Or.inr ⟨row, hrow, hrow', set, e'.symm, hmove⟩)
      · rw [if_neg (by simpa using hid)] at e'
        exact Or.inl (e' ▸ hx)

/-- A transaction has been at a stage. -/
def HasReached (id : Uuid) (s : Stage) (db : Db) : Prop :=
  ∃ r ∈ db.rows .browserAuthorizations, BrowserRow.id r = id ∧ Stage.Reaches s r.stage

theorem hasReached_kept (id : Uuid) (s : Stage) :
    Kept (contract P) (program P) (HasReached id s) :=
  kept_row fun _ _ hlater hr => ⟨hlater.id.trans hr.1, hr.2.trans hlater.stage⟩

theorem moved_before (h : Reachable P M) (he : e ∈ M.log) (hm : Moved P e id s) :
    ¬HasReached id s e.before := by
  rintro ⟨r, hr, hid, hreach⟩
  obtain ⟨row, row', ⟨hrow, _, set, rfl, hmove⟩, hid', rfl⟩ := hm
  have hI := (reachable_entry (lawful P) h he).1.inv
  have hsame : r = row := same_key hI hr hrow (hid.trans hid'.symm)
  have hlt : row.stage.rank < (set row).stage.rank := hmove.next.rank_lt
  rw [hsame] at hreach
  rcases hreach.rank_le with heq | hgt
  · rw [heq] at hlt
    exact Nat.lt_irrefl _ hlt
  · omega

theorem moved_after (hm : Moved P e id s) : HasReached id s e.after := by
  obtain ⟨row, row', ⟨_, hrow', set, rfl, hmove⟩, hid, rfl⟩ := hm
  exact ⟨set row, hrow', hmove.id.trans hid, .refl⟩

/-- **A transaction moves to a stage at most once.** -/
theorem moved_once (h : Reachable P M) (he : e ∈ M.log) (he' : e' ∈ M.log)
    (hm : Moved P e id s) (hm' : Moved P e' id s) : e = e' :=
  kept_once (A := fun e => Moved P e id s) (lawful P) (hasReached_kept id s) h
    (fun _ hx => moved_before h hx) (fun _ _ => moved_after) he he' hm hm'

/-- A decided transaction is not moved again. -/
theorem not_moved_decided (h : Reachable P M) (hs : Before M e e') (hm : Moved P e id s)
    (hs₁ : s.rank = 4) : ¬Moved P e' id s' := by
  rintro ⟨row, row', ⟨hrow, _, set, _, hmove⟩, hid, _⟩
  have he' : e' ∈ M.log := hs.subset (by simp)
  obtain ⟨r, hr, hid', hreach⟩ :=
    kept_between (lawful P) (hasReached_kept id s) h hs (moved_after hm)
  have hI := (reachable_entry (lawful P) h he').1.inv
  have hsame : r = row := same_key hI hr hrow (hid'.trans hid.symm)
  have hstage : row.stage = s := hsame ▸ hreach.decided hs₁
  have hlt : row.stage.rank < (set row).stage.rank := hmove.next.rank_lt
  have hle : (set row).stage.rank ≤ 4 := by cases (set row).stage <;> decide
  rw [hstage] at hlt
  omega

/-- A call moves a transaction to one stage. -/
theorem moved_unique (h : Reachable P M) (he : e ∈ M.log) (hm : Moved P e id s)
    (hm' : Moved P e id s') : s = s' := by
  obtain ⟨row, row', ⟨_, hrow, set, rfl, hmove⟩, hid, rfl⟩ := hm
  obtain ⟨x, x', ⟨_, hx, set', rfl, hmove'⟩, hid', rfl⟩ := hm'
  obtain ⟨l₁, l₂, hl⟩ := List.append_of_mem he
  have hatomic := (serial_reachable (lawful P) h).atomic
  have hI : (layout P).Integrity e.after := ((hatomic.split hl).2.good (lawful P)).1
  have hids : (set row).id = (set' x).id := by rw [hmove.id, hmove'.id, hid, hid']
  rw [same_key hI hrow hx hids]

/-- **A transaction is decided at most once.** -/
theorem decided_once (h : Reachable P M) (he : e ∈ M.log) (he' : e' ∈ M.log)
    (hm : Moved P e id s) (hm' : Moved P e' id s') (hs₁ : s.rank = 4) (hs₂ : s'.rank = 4) :
    e = e' ∧ s = s' := by
  rcases mem_pair he he' with rfl | hs | hs
  · exact ⟨rfl, moved_unique h he hm hm'⟩
  · exact absurd hm' (not_moved_decided h hs hm hs₁)
  · exact absurd hm (not_moved_decided h hs hm' hs₂)

theorem Moves.next {row row' : BrowserRow} (h : Moves P e row row') :
    row'.id = row.id ∧ Stage.Next row.stage row'.stage := by
  obtain ⟨_, _, set, rfl, hmove⟩ := h
  exact ⟨hmove.id, hmove.next⟩

theorem Moves.products {row row' : BrowserRow} (h : Reachable P M) (he : e ∈ M.log)
    (hm : Moves P e row row') : Products e.before e.after row' := by
  obtain ⟨hgood, hrun⟩ := reachable_entry (lawful P) h he
  obtain ⟨hrow, _, set, rfl, hmove⟩ := hm
  exact move_products hgood.inv hrow hrun hmove

/-- Where a transaction begins. -/
theorem Begins.stage {t : Tape} {call : Call} {row : BrowserRow} (h : Begins P t call row) :
    row.stage = .awaitingStart ∨ row.stage = .awaitingConsent := by
  cases h with
  | google => exact Or.inl rfl
  | authenticated => exact Or.inr rfl

/-- **Browser transactions.** Between any two moments of a run the stage of a row only moves
    along `Stage.Next`, and a decided row stays; a row changes only by a move, whose caller
    showed the secrets the row stores (`Move`), and every success is one. To each stage a
    transaction moves at most once, and it is decided at most once; a login makes one session,
    an approval one code, and no other move makes either. -/
theorem transactions_once (P : Platform) {M M' : Machine schema Request Reply}
    (h : Reachable P M) (hs : Steps (program P) (contract P).compat M M') :
    (∀ row ∈ M.db.rows .browserAuthorizations, ∃ row' ∈ M'.db.rows .browserAuthorizations,
      BrowserRow.id row' = BrowserRow.id row ∧
      Stage.Reaches (BrowserRow.stage row) (BrowserRow.stage row') ∧
      (BrowserRow.stage row ∈ [.approved, .denied, .failed, .expired] →
        BrowserRow.stage row' = BrowserRow.stage row)) ∧
    (∀ e ∈ M'.log, ∀ row' ∈ e.after.rows .browserAuthorizations,
      row' ∈ e.before.rows .browserAuthorizations ∨
      (Begins P e.call.tape e.call.call row' ∧
        BrowserRow.stage row' ∈ [.awaitingStart, .awaitingConsent]) ∨
      ∃ row, Moves P e row row') ∧
    (∀ e ∈ M'.log, ∀ row row', Moves P e row row' → row'.id = row.id ∧
      Stage.Next row.stage row'.stage ∧ Products e.before e.after row') ∧
    (∀ e ∈ M'.log, ∀ s, e.reply.reached = some s → ∃ row row', Moves P e row row' ∧
      row'.stage = s) ∧
    (∀ e ∈ M'.log, ∀ e' ∈ M'.log, ∀ id s, Moved P e id s → Moved P e' id s → e = e') ∧
    ∀ e ∈ M'.log, ∀ e' ∈ M'.log, ∀ id s s', Moved P e id s → Moved P e' id s' →
      s.rank = 4 → s'.rank = 4 → e = e' ∧ s = s' := by
  have h' : Reachable P M' := h.steps hs
  refine ⟨fun row hrow => ?_, fun e he row' hrow' => ?_, fun e he row row' hm => ?_,
    fun e he s hr => reached_moves h' he hr, fun e he e' he' id s => moved_once h' he he',
    fun e he e' he' id s s' hm hm' => decided_once h' he he' hm hm'⟩
  · obtain ⟨row', hrow', hlater⟩ := (steps_rely (lawful P) h hs).later hrow
    refine ⟨row', hrow', BrowserRow.Later.id hlater, BrowserRow.Later.stage hlater,
      fun hstage => Stage.Reaches.decided (BrowserRow.Later.stage hlater) ?_⟩
    simp only [List.mem_cons, List.not_mem_nil, or_false] at hstage
    rcases hstage with hstage | hstage | hstage | hstage <;> rw [hstage] <;> rfl
  · rcases row_origin h' he hrow' with hold | hnew | hmoved
    · exact Or.inl hold
    · exact Or.inr (Or.inl ⟨hnew, by simpa using hnew.stage⟩)
    · exact Or.inr (Or.inr hmoved)
  · exact ⟨hm.next.1, hm.next.2, hm.products h' he⟩

/-- A transaction on its whole path to a code, seen when it came back from Google and at the
    end. -/
theorem transactions_once_approved :
    (Sample.machine Sample.browserSteps).log.map (fun e => e.reply.reached) =
      [none, some .awaitingGoogle, some .callbackClaimed, some .awaitingConsent,
        some .approved] ∧
    (∀ row ∈ (Sample.machine Sample.callbackSteps).db.rows .browserAuthorizations,
      ∃ row' ∈ (Sample.machine Sample.browserSteps).db.rows .browserAuthorizations,
        BrowserRow.id row' = BrowserRow.id row ∧
        Stage.Reaches (BrowserRow.stage row) (BrowserRow.stage row')) ∧
    ∃ e ∈ (Sample.machine Sample.browserSteps).log, ∃ row row',
      Moves Sample.platform e row row' ∧ row'.stage = .approved ∧
      Products e.before e.after row' ∧
      ∀ e' ∈ (Sample.machine Sample.browserSteps).log, ∀ s, s.rank = 4 →
        Moved Sample.platform e' row.id s → e = e' := by
  have hreach : Reachable Sample.platform (Sample.machine Sample.callbackSteps) :=
    Sample.reachable (by decide)
  have hlater : Sql.Steps (program Sample.platform) (contract Sample.platform).compat
      (Sample.machine Sample.callbackSteps) (Sample.machine Sample.browserSteps) :=
    Sample.later (by decide : Sample.Apart Sample.browserSteps)
  obtain ⟨hkept, _, hproducts, hsuccess, _, hdecided⟩ :=
    transactions_once Sample.platform hreach hlater
  have hpath : (Sample.machine Sample.browserSteps).log.map (fun e => e.reply.reached) =
      [none, some .awaitingGoogle, some .callbackClaimed, some .awaitingConsent,
        some .approved] := by decide +kernel
  have happroved : some Stage.approved ∈
      (Sample.machine Sample.browserSteps).log.map (fun e => e.reply.reached) := by
    rw [hpath]
    simp
  obtain ⟨e, he, hr⟩ := List.mem_map.mp happroved
  obtain ⟨row, row', hm, hstage⟩ := hsuccess e he _ hr
  refine ⟨hpath, fun row hrow => ?_, e, he, row, row', hm, hstage,
    (hproducts e he row row' hm).2.2, fun e' he' s hs hm' => (hdecided e he e' he' row.id
      .approved s ⟨row, row', hm, rfl, hstage⟩ hm' rfl hs).1⟩
  obtain ⟨row', hrow', hid, hstages, _⟩ := hkept row hrow
  exact ⟨row', hrow', hid, hstages⟩

/-! ## 5. Secrets -/

/-- `start_google` never reads a NULL. -/
theorem started_ne_database {t : Tape} {id : Uuid} {state binding : String}
    {r : Except BrowserError (String × String)} (hI : (layout P).Integrity db)
    (h : (startGoogle P t id state binding).tx.run db = (r, db')) :
    r ≠ .error .database := by
  rcases startGoogle_run h with ⟨rfl, _⟩ | ⟨row, hrow, hawaits, rfl, _⟩
  · exact fun e => by cases e
  · obtain ⟨x, hx⟩ := startSecrets_ok (hI.ok .browserAuthorizations row hrow).secrets
      (awaits_iff hawaits).2.2.1
    rw [hx]
    exact fun e => by cases e

/-- Nor does `claim_callback`. -/
theorem claimed_ne_database {t : Tape} {state binding : String}
    {r : Except BrowserError (String × String × String)} (hI : (layout P).Integrity db)
    (h : (claimCallback P t state binding).tx.run db = (r, db')) : r ≠ .error .database := by
  rcases claimCallback_run h with ⟨rfl, _⟩ | ⟨row, hrow, hend⟩
  · exact fun e => by cases e
  have hsecrets := (hI.ok .browserAuthorizations row
    (find_mem (t := .browserAuthorizations) hrow)).secrets
  have hstage : row.stage = .awaitingGoogle := (claimable_iff (List.find?_some hrow)).2
  rcases hend with ⟨_, _, hnull⟩ | ⟨_, rfl, _⟩ | ⟨_, _, _, _, rfl, _⟩
  · have hverifier := hsecrets.verifier.mpr (Or.inr hstage)
    have hnonce := (hsecrets.upstream (Or.inr hstage)).1
    rcases hnull with hnull | hnull
    · rw [hnull] at hverifier
      cases hverifier
    · rw [hnull] at hnonce
      cases hnonce
  · exact fun e => by cases e
  · exact fun e => by cases e

/-- **The secrets of a transaction.** In every reachable state each row has its Google
    verifier exactly until its callback is claimed, cancelled or expired, its claim while it
    is claimed, its CSRF hash exactly while it waits for consent, and its session from then
    on; so neither `start_google` nor `claim_callback` ever reads a NULL. -/
theorem transactions_secrets (P : Platform) {M : Machine schema Request Reply}
    (h : Reachable P M) :
    (∀ row ∈ M.db.rows .browserAuthorizations, BrowserRow.Secrets row ∧
      (BrowserRow.stage row ∉ [.awaitingStart, .awaitingGoogle] →
        BrowserRow.upstreamVerifier row = none) ∧
      (BrowserRow.stage row ≠ .awaitingConsent → BrowserRow.csrfHash row = none)) ∧
    ∀ e ∈ M.log, e.reply ≠ .started (.error .database) ∧
      e.reply ≠ .claimed (.error .database) := by
  refine ⟨fun row hrow => ?_, fun e he => ?_⟩
  · have hsecrets : BrowserRow.Secrets row :=
      ((reachable_integrity h).ok .browserAuthorizations row hrow).secrets
    refine ⟨hsecrets, fun hstage => ?_, fun hstage => ?_⟩
    · refine Option.not_isSome_iff_eq_none.mp fun hsome => hstage ?_
      simpa using hsecrets.verifier.mp hsome
    · exact Option.not_isSome_iff_eq_none.mp fun hsome => hstage (hsecrets.csrf.mp hsome)
  · obtain ⟨⟨hI, _⟩, hrun⟩ := reachable_entry (lawful P) h he
    generalize e.call = c at hrun
    obtain ⟨call, t⟩ := c
    cases call with
    | startGoogle id state binding =>
        obtain ⟨x, hx, hr⟩ := run_of_map hrun
        rw [hr]
        exact ⟨fun e => started_ne_database hI hx (by injection e), fun e => by cases e⟩
    | claimCallback state binding =>
        obtain ⟨x, hx, hr⟩ := run_of_map hrun
        rw [hr]
        exact ⟨fun e => (by cases e), fun e => claimed_ne_database hI hx (by injection e)⟩
    | _ =>
        obtain ⟨x, _, hr⟩ := run_of_map hrun
        rw [hr]
        exact ⟨fun e => (by cases e), fun e => by cases e⟩

/-- A claimed callback has lost its verifier and kept its claim. -/
theorem transactions_secrets_claimed :
    ∃ row ∈ (Sample.machine Sample.callbackSteps).db.rows .browserAuthorizations,
      BrowserRow.stage row = .callbackClaimed ∧ BrowserRow.upstreamVerifier row = none ∧
        (BrowserRow.claimHash row).isSome = true := by
  have hreach : Reachable Sample.platform (Sample.machine Sample.callbackSteps) :=
    Sample.reachable (by decide)
  obtain ⟨row, hrow, hstage⟩ :
      ∃ row ∈ (Sample.machine Sample.callbackSteps).db.rows .browserAuthorizations,
        BrowserRow.stage row = .callbackClaimed := by decide +kernel
  obtain ⟨hsecrets, hverifier, _⟩ := (transactions_secrets Sample.platform hreach).1 row hrow
  exact ⟨row, hrow, hstage, hverifier (by rw [hstage]; decide), hsecrets.claim hstage⟩

end Eri
