/-
  File:      Eri/Bindings.lean
  Subject:   Whose client a grant was made for: the classification it keeps and is checked by.

  A registry resolves a client as declared here (`dynamicFor` is none) or from a metadata
  document, whose security binding then stands on the transaction, its code and its family.
  Every call that takes a registry resolves the client again and compares.

  * `Call.policy`, `Call.grantOf` -- what a call checks, and the stored grant it checks it on;
  * `Agrees` -- the policy classifies the client as the grant does;
  * `agrees_or_unchanged` -- a call that does not agree fails and leaves the rows alone;
  * **`client_bindings`** -- over whole runs, for policies that change in any way.
-/
import Eri.Grants

namespace Eri

open Sql

variable {P : Platform} {M : Machine schema Request Reply} {c : Request} {t : Tape} {db db' : Db}

/-! ## 1. Classifications -/

namespace ClientRegistry

/-- The binding a client is recorded with under a registry: none for a declared client. -/
def bindingOf (R : ClientRegistry) (clientId : String) : Option Json :=
  (R.dynamicFor clientId).map fun d => d.binding.toJson

/-- **The binding of a metadata client is the binding of its document.** -/
theorem bindingOf_projectCimd {R R' : ClientRegistry} {now : Instant}
    {snapshot : LeasedClientMetadata} {scopes resources : List String} {allowRefresh : Bool}
    (h : R.projectCimd P now snapshot scopes resources allowRefresh = .ok R') :
    R'.bindingOf snapshot.document.clientId =
      some (snapshot.document.securityBinding allowRefresh).toJson := by
  unfold projectCimd at h
  simp only [bind, Except.bind] at h
  split at h
  · cases h
  split at h
  · cases h
  split at h
  · cases h
  cases h
  simp [bindingOf, dynamicFor]

theorem bindingOf_declared {R : ClientRegistry} (h : R.dynamic = none) (clientId : String) :
    R.bindingOf clientId = none := by
  simp [bindingOf, dynamicFor, h]

theorem validateBinding_contains {R : ClientRegistry} {now : Instant} {clientId : String}
    {stored : Option Json} (h : R.validateBinding now clientId stored = .ok ()) :
    R.containsClient clientId = true := by
  unfold validateBinding at h
  simp only [bind, Except.bind] at h
  split at h
  · cases h
  split at h
  · cases h
  · rename_i hno
    simpa using hno

end ClientRegistry

/-- **A policy classifies a client as a grant does**: the registry has the client, declared for
    a grant without a binding, or of a document with the recorded binding; and without a
    registry the grant has no binding. -/
def Agrees (registry : Option ClientRegistry) (clientId : String) (stored : Option Json) : Prop :=
  match registry with
  | some R => R.containsClient clientId = true ∧ stored = R.bindingOf clientId
  | none => stored = none

/-- A column that holds what `cimd_binding_json` writes. -/
def IsBinding (stored : Option Json) : Prop :=
  ∀ j, stored = some j → ∃ b : CimdSecurityBinding, j = b.toJson

theorem agrees_of_checkBinding {registry : Option ClientRegistry} {now : Instant}
    {clientId : String} {stored : Option Json} (hstored : IsBinding stored)
    (h : checkBinding registry now clientId stored = .ok ()) :
    Agrees registry clientId stored := by
  cases registry with
  | none =>
      unfold checkBinding at h
      cases stored with
      | none => rfl
      | some j => cases h
  | some R =>
      have hok : R.validateBinding now clientId stored = .ok () := by
        unfold checkBinding at h
        cases hv : R.validateBinding now clientId stored with
        | ok u => rfl
        | error e => simp [hv, Except.mapError] at h
      exact ⟨R.validateBinding_contains hok, R.validateBinding_ok hok hstored⟩

theorem agrees_of_policy {registry : Option ClientRegistry} {now now' : Instant}
    {row : BrowserRow} (hrow : BrowserRow.Ok db row)
    (h : validateOptionalRegistry P registry now now' row.toConsentRow = .ok ()) :
    Agrees registry row.clientId row.cimdBinding := by
  cases registry with
  | none =>
      unfold validateOptionalRegistry at h
      cases hstored : row.cimdBinding with
      | none => rfl
      | some j => simp [hstored] at h
  | some R =>
      obtain ⟨p, hp⟩ := revalidate_of_validate h
      have hok := (revalidate_checks hp).1
      exact ⟨R.validateBinding_contains hok, R.validateBinding_ok hok hrow.binding⟩

/-! ## 2. Calls that check -/

/-- The policy a call checks a stored grant by; calls that check none have none. -/
def Call.policy : Call → Option (Option ClientRegistry)
  | .exchangeCode .. | .rotateRefresh .. => some none
  | .exchangeCodeRequest _ _ _ _ _ _ registry => some (some registry)
  | .rotateRefreshRequest _ _ _ _ registry => some (some registry)
  | .cancelGoogle _ _ _ registry => some registry
  | .denyCallback _ registry => some (some registry)
  | .completeCallback _ _ _ registry => some registry
  | .approve _ _ registry => some (some registry)
  | .approvePreAuthorized _ _ registry => some (some registry)
  | .consentView _ _ registry => some (some registry)
  | .deny _ _ registry => some registry
  | _ => none

def codeGrant (P : Platform) (raw : String) (db : Db) : Option (String × Option Json) :=
  ((db.rows .authorizationCodes).find? fun code => code.codeHash = secretHash P raw).map
    fun code => (code.clientId, code.cimdBinding)

def tokenGrant (P : Platform) (raw : String) (db : Db) : Option (String × Option Json) :=
  (findMember db (secretHash P raw)).map fun mf => (mf.2.clientId, mf.2.cimdBinding)

def transactionGrant (p : BrowserRow → Bool) (db : Db) : Option (String × Option Json) :=
  ((db.rows .browserAuthorizations).find? p).map fun row => (row.clientId, row.cimdBinding)

/-- The client and the binding of the grant a call works on. -/
def Call.grantOf (P : Platform) (db : Db) : Call → Option (String × Option Json)
  | .exchangeCode raw .. | .exchangeCodeRequest raw .. => codeGrant P raw db
  | .rotateRefresh raw .. | .rotateRefreshRequest raw .. => tokenGrant P raw db
  | .cancelGoogle id .. => transactionGrant (fun r => r.id = id) db
  | .denyCallback claim .. | .completeCallback claim .. =>
      transactionGrant (BrowserRow.claimedBy P claim) db
  | .approve _ handle _ | .approvePreAuthorized _ handle _ | .consentView _ handle _
  | .deny _ handle _ => transactionGrant (fun r => r.id = handle.transactionId) db
  | _ => none

/-- The call works on a grant that its policy agrees with. -/
def Call.Agreed (P : Platform) (call : Call) (registry : Option ClientRegistry) (db : Db) :
    Prop :=
  ∃ clientId stored, call.grantOf P db = some (clientId, stored) ∧
    Agrees registry clientId stored

/-- The bindings of codes are ones that were written. -/
def CodesBound (db : Db) : Prop :=
  ∀ code ∈ db.rows .authorizationCodes, IsBinding (AuthorizationCodeRow.toCodeRow code).cimdBinding

theorem codesBound_kept : Kept (contract P) (program P) CodesBound := by
  intro c db hgood hbound code hcode
  rcases code_origin hgood rfl code hcode with ⟨x, hx, hlater⟩ | hissues
  · rw [hlater.keeps]
    exact hbound x hx
  · have hgrant : ∃ grant : ValidatedAuthorizationGrant,
        code.cimdBinding = grant.cimdBindingJson := by
      obtain ⟨call, t⟩ := c
      cases hissues with
      | direct => exact ⟨_, rfl⟩
      | approve => exact ⟨_, rfl⟩
      | approvePreAuthorized => exact ⟨_, rfl⟩
    obtain ⟨grant, hgrant⟩ := hgrant
    intro j hj
    rw [hgrant, ValidatedAuthorizationGrant.cimdBindingJson, Option.map_eq_some_iff] at hj
    obtain ⟨d, _, rfl⟩ := hj
    exact ⟨d.binding, rfl⟩

/-- The bindings of families are ones that were written. -/
theorem family_bound {f : FamilyRow} (hI : (layout P).Integrity db) (hbound : CodesBound db)
    (hf : f ∈ db.rows .refreshFamilies) : IsBinding f.cimdBinding := by
  obtain ⟨code, hcode, hdescends, _⟩ := (hI.ok .refreshFamilies f hf).code
  rw [hdescends.binding]
  exact hbound code hcode

/-! ## 3. One call -/

theorem exchange_agreed {registry : Option ClientRegistry} {raw : String} {r : Reply}
    (hI : (layout P).Integrity db) (hbound : CodesBound db) (hc : c.call.exchangeOf = some raw)
    (hpolicy : c.call.policy = some registry) (h : (program P c).run db = (r, db')) :
    c.call.Agreed P registry db ∨ (r.isOk = false ∧ db' = db) := by
  rcases exchange_run hc h with ⟨e, rfl, rfl⟩ | ⟨a, x, ha, rfl, rfl, hrun⟩
  · exact Or.inr ⟨rfl, rfl⟩
  rcases exchangeBound_run hrun with ⟨e, rfl, rfl⟩ | ⟨seen, code, session, hp, _⟩
  · exact Or.inr ⟨rfl, rfl⟩
  obtain ⟨rfl, hshown⟩ := hp.row hI
  -- the policy of the call is the registry it is checked by
  have hgrant : c.call.grantOf P db = codeGrant P a.raw db ∧ a.registry = registry := by
    obtain ⟨call, t⟩ := c
    cases call with
    | exchangeCode =>
        cases hpolicy
        cases hc
        unfold Request.Exchanges at ha
        exact ⟨rfl, by rw [ha]⟩
    | exchangeCodeRequest =>
        cases hpolicy
        cases hc
        obtain ⟨_, _, _, _, _, ha⟩ := ha
        exact ⟨rfl, by rw [ha]⟩
    | _ => cases hc
  have hcheck : checkBinding a.registry (c.tape.instant (a.lease + 0)) a.clientId
      seen.cimdBinding = .ok () := hp.binding 0 (by simp)
  refine Or.inl ⟨a.clientId, seen.cimdBinding, ?_, hgrant.2 ▸ agrees_of_checkBinding
    (hbound seen hshown.stored) hcheck⟩
  rw [hgrant.1, codeGrant, hp.found, Option.map_some, hp.matching.client]

theorem rotate_agreed {registry : Option ClientRegistry} {raw : String} {r : Reply}
    (hI : (layout P).Integrity db) (hbound : CodesBound db) (hc : c.call.rotationOf = some raw)
    (hpolicy : c.call.policy = some registry) (h : (program P c).run db = (r, db')) :
    c.call.Agreed P registry db ∨ (r.isOk = false ∧ db' = db) := by
  rcases rotate_run hc h with ⟨e, rfl, rfl⟩ | ⟨a, x, ha, rfl, rfl, hrun⟩
  · exact Or.inr ⟨rfl, rfl⟩
  rcases rotateBound_run hrun with ⟨e, rfl, rfl⟩ | ⟨seen, member, family, session, hp, _⟩
  · exact Or.inr ⟨rfl, rfl⟩
  obtain ⟨rfl, hshown⟩ := hp.rows hI
  have hgrant : c.call.grantOf P db = tokenGrant P a.raw db ∧ a.registry = registry := by
    obtain ⟨call, t⟩ := c
    cases call with
    | rotateRefresh =>
        cases hpolicy
        cases hc
        unfold Request.Rotates at ha
        exact ⟨rfl, by rw [ha]⟩
    | rotateRefreshRequest =>
        cases hpolicy
        cases hc
        obtain ⟨_, _, _, _, _, _, ha⟩ := ha
        exact ⟨rfl, by rw [ha]⟩
    | _ => cases hc
  have hcheck : checkBinding a.registry (c.tape.instant 0) a.clientId family.cimdBinding =
      .ok () := hp.binding 0 (by simp)
  refine Or.inl ⟨a.clientId, family.cimdBinding, ?_, hgrant.2 ▸ agrees_of_checkBinding
    (family_bound hI hbound hshown.grant) hcheck⟩
  rw [hgrant.1, tokenGrant, hp.found, Option.map_some, hp.client]

/-- A transaction that passed is the grant of the call. -/
theorem transaction_agreed {registry : Option ClientRegistry} {p : BrowserRow → Bool}
    {row : BrowserRow} {now now' : Instant} {call : Call} (hI : (layout P).Integrity db)
    (hcall : call.grantOf P db = transactionGrant p db)
    (hrow : (db.rows .browserAuthorizations).find? p = some row)
    (h : validateOptionalRegistry P registry now now' row.toConsentRow = .ok ()) :
    call.Agreed P registry db :=
  ⟨row.clientId, row.cimdBinding, by rw [hcall, transactionGrant, hrow, Option.map_some],
    agrees_of_policy (hI.ok .browserAuthorizations row
      (find_mem (t := .browserAuthorizations) hrow)) h⟩

/-- The transaction with an id. -/
theorem find_id {row : BrowserRow} (hI : (layout P).Integrity db)
    (hrow : row ∈ db.rows .browserAuthorizations) :
    (db.rows .browserAuthorizations).find? (fun r => r.id = row.id) = some row :=
  hI.find (p := fun r : BrowserRow => decide (r.id = row.id)) (n := .id row.id)
    (fun r hr => by
      rw [← of_decide_eq_true hr]
      exact List.mem_cons_self) hrow (by simp)

theorem find_consents {session : ProviderSession} {handle : ConsentHandle} {s : SessionRow}
    {row : BrowserRow} (hI : (layout P).Integrity db)
    (hp : ConsentPresented P t session handle db s row) :
    (db.rows .browserAuthorizations).find? (fun r => r.id = handle.transactionId) =
      some row := by
  have hid : row.id = handle.transactionId := consents_id (List.find?_some hp.locked :)
  rw [← hid]
  exact find_id hI (find_mem (t := .browserAuthorizations) hp.locked)

/-- **A call whose policy does not agree with the grant fails and leaves the rows alone.** -/
theorem agreed_or_unchanged {registry : Option ClientRegistry} {r : Reply}
    (hI : (layout P).Integrity db) (hbound : CodesBound db)
    (hpolicy : c.call.policy = some registry) (h : (program P c).run db = (r, db')) :
    c.call.Agreed P registry db ∨ (r.isOk = false ∧ db' = db) := by
  obtain ⟨call, t⟩ := c
  cases call with
  | exchangeCode raw => exact exchange_agreed hI hbound rfl hpolicy h
  | exchangeCodeRequest raw => exact exchange_agreed hI hbound rfl hpolicy h
  | rotateRefresh raw => exact rotate_agreed hI hbound rfl hpolicy h
  | rotateRefreshRequest raw => exact rotate_agreed hI hbound rfl hpolicy h
  | cancelGoogle id state binding policy =>
      cases hpolicy
      obtain ⟨x, hx, rfl⟩ := run_of_map h
      rcases cancelGoogle_run hx with ⟨⟨e, rfl⟩, hsame⟩ | ⟨row, hrow, hpassed, _⟩
      · exact Or.inr ⟨rfl, hsame⟩
      · have hid : row.id = id := (awaits_iff (List.find?_some hrow :)).1
        have hfind := find_id hI (find_mem (t := .browserAuthorizations) hrow)
        rw [hid] at hfind
        exact Or.inl (transaction_agreed hI rfl hfind (hpassed 0 (by simp)))
  | denyCallback claim policy =>
      cases hpolicy
      obtain ⟨x, hx, rfl⟩ := run_of_map h
      rcases denyCallback_run hx with ⟨⟨e, rfl⟩, hsame⟩ | ⟨row, hrow, hpassed, _⟩
      · exact Or.inr ⟨rfl, hsame⟩
      · exact Or.inl (transaction_agreed hI rfl hrow (hpassed 0 (by simp)))
  | completeCallback claim identity lifetime policy =>
      cases hpolicy
      obtain ⟨x, hx, rfl⟩ := run_of_map h
      rcases completeCallback_run hx with ⟨⟨e, rfl⟩, hsame⟩ | ⟨row, hrow, hpassed, _⟩
      · exact Or.inr ⟨rfl, hsame⟩
      · obtain ⟨policyRow, hpolicyRow, hpassed⟩ := hpassed
        rw [find_id hI (find_mem (t := .browserAuthorizations) hrow)] at hpolicyRow
        cases hpolicyRow
        exact Or.inl (transaction_agreed hI rfl hrow (hpassed 0 (by simp)))
  | approve session handle policy =>
      cases hpolicy
      obtain ⟨x, hx, rfl⟩ := run_of_map h
      rcases approve_run hx with ⟨⟨e, rfl⟩, hsame⟩ | ⟨s, row, _, _, hp, hpending, _⟩
      · exact Or.inr ⟨rfl, hsame⟩
      · exact Or.inl (transaction_agreed hI rfl (find_consents hI hp)
          (validate_of_revalidate hpending))
  | approvePreAuthorized session handle policy =>
      cases hpolicy
      obtain ⟨x, hx, rfl⟩ := run_of_map h
      rcases approvePreAuthorized_run hx with ⟨⟨e, rfl⟩, hsame⟩ | ⟨s, row, _, hp, hpending, _⟩
      · exact Or.inr ⟨rfl, hsame⟩
      · exact Or.inl (transaction_agreed hI rfl (find_consents hI hp)
          (validate_of_revalidate hpending))
  | consentView session handle policy =>
      cases hpolicy
      obtain ⟨x, hx, rfl⟩ := run_of_map h
      obtain ⟨hsame, ⟨e, rfl⟩ | ⟨s, row, hp, hpassed, _⟩⟩ := consentView_run hx
      · exact Or.inr ⟨rfl, hsame⟩
      · exact Or.inl (transaction_agreed hI rfl (find_consents hI hp) (hpassed 0 (by simp)))
  | deny session handle policy =>
      cases hpolicy
      obtain ⟨x, hx, rfl⟩ := run_of_map h
      rcases deny_run hx with ⟨⟨e, rfl⟩, hsame⟩ | ⟨s, row, hp, hpassed, _⟩
      · exact Or.inr ⟨rfl, hsame⟩
      · exact Or.inl (transaction_agreed hI rfl (find_consents hI hp) (hpassed 0 (by simp)))
  | _ => cases hpolicy

/-! ## 4. Runs -/

/-- A transaction has the binding of the request it began with. -/
theorem begun_binding {e : Entry} {pending : PendingAuthorizationGrant}
    {state nonce : Option String} {allow : Bool} {row : BrowserRow} (h : Reachable P M)
    (he : e ∈ M.log) (hcall : e.call.call.begins = some (pending, state, nonce, allow))
    (hrow : row ∈ M.db.rows .browserAuthorizations) (hid : row.id = e.call.tape.uuid 0) :
    row.cimdBinding = pending.cimdBindingJson := by
  obtain ⟨e', he', pending', _, _, _, _, hcall', hid', hconsent⟩ := reachable_began h row hrow
  obtain rfl : e' = e := entry_of_uuid h he' he (hid'.symm.trans hid)
  rw [hcall] at hcall'
  cases hcall'
  rw [hconsent]
  rfl

/-- So have its code and its family. -/
theorem issued_binding {e : Entry} {session : ProviderSession} {handle : ConsentHandle}
    {registry : ClientRegistry} {code : AuthorizationCodeRow} {stored : Option Json}
    (h : Reachable P M) (he : e ∈ M.log)
    (hcall : e.call.call.approves = some (session, handle, registry))
    (hrows : ∀ row ∈ M.db.rows .browserAuthorizations,
      BrowserRow.id row = handle.transactionId →
        (BrowserRow.toConsentRow row).cimdBinding = stored)
    (hcode : code ∈ M.db.rows .authorizationCodes) (hissued : Issued P e code) :
    code.cimdBinding = stored ∧ ∀ f ∈ M.db.rows .refreshFamilies,
      FamilyRow.sourceCodeId f = code.id → FamilyRow.cimdBinding f = stored := by
  obtain ⟨row, hrow, hid, _, hof⟩ := issued_of h he hcall hissued
  have hbinding : code.cimdBinding = stored := hof.binding.trans (hrows row hrow hid)
  refine ⟨hbinding, fun f hf hsource => ?_⟩
  have hI : (layout P).Integrity M.db := reachable_integrity h
  obtain ⟨source, hmem, hdescends, _⟩ := (hI.ok .refreshFamilies f hf).code
  have hsame : source = code := same_key hI hmem hcode (hdescends.source.symm.trans hsource)
  rw [hdescends.binding, hsame, hbinding]

theorem validatePending_binding {R : ClientRegistry} {now : Instant}
    {request : AuthorizationRequest} {pending : PendingAuthorizationGrant}
    (h : R.validatePending P now request = .ok pending) :
    pending.cimdBindingJson = R.bindingOf pending.clientId := by
  obtain ⟨hclient, _, _, _, hdynamic, _⟩ := R.validatePendingParts_ok h
  unfold PendingAuthorizationGrant.cimdBindingJson ClientRegistry.bindingOf
  rw [hdynamic, hclient]

theorem entry_agreed {e : Entry} {registry : Option ClientRegistry} (h : Reachable P M)
    (he : e ∈ M.log) (hpolicy : e.call.call.policy = some registry) :
    e.call.call.Agreed P registry e.before ∨ (e.reply.isOk = false ∧ e.after = e.before) := by
  obtain ⟨hgood, hrun⟩ := reachable_entry (lawful P) h he
  have hempty : CodesBound Sql.Db.empty := fun code hcode => by cases hcode
  exact agreed_or_unchanged hgood.inv
    (reachable_kept_before (lawful P) codesBound_kept hempty h he) hpolicy hrun

/-- **Client classifications.** A declared client is recorded without a binding, a metadata
    client with the binding of its document; a transaction, its code and its family keep what
    the client was recorded with at the start. However registries change, a call that checks a
    policy succeeds only on a grant its policy agrees with, and otherwise leaves the rows
    alone: all other calls answer as if it had not been made. -/
theorem client_bindings (P : Platform) {M : Machine schema Request Reply}
    (h : Reachable P M) :
    ((∀ (R : ClientRegistry) clientId, R.dynamic = none → R.bindingOf clientId = none) ∧
      ∀ (R R' : ClientRegistry) now snapshot scopes resources allowRefresh,
        R.projectCimd P now snapshot scopes resources allowRefresh = .ok R' →
        R'.bindingOf snapshot.document.clientId =
          some (snapshot.document.securityBinding allowRefresh).toJson) ∧
    (∀ e₀ ∈ M.log, ∀ (R : ClientRegistry) now request pending state nonce allow,
      R.validatePending P now request = .ok pending →
      e₀.call.call.begins = some (pending, state, nonce, allow) →
      (∀ row ∈ M.db.rows .browserAuthorizations, BrowserRow.id row = e₀.call.tape.uuid 0 →
        (BrowserRow.toConsentRow row).cimdBinding = R.bindingOf pending.clientId) ∧
      ∀ e ∈ M.log, ∀ session handle registry,
        e.call.call.approves = some (session, handle, registry) →
        handle.transactionId = e₀.call.tape.uuid 0 →
        ∀ code ∈ M.db.rows .authorizationCodes, Issued P e code →
          (AuthorizationCodeRow.toCodeRow code).cimdBinding = R.bindingOf pending.clientId ∧
          ∀ f ∈ M.db.rows .refreshFamilies,
            FamilyRow.sourceCodeId f = (AuthorizationCodeRow.toCodeRow code).id →
            FamilyRow.cimdBinding f = R.bindingOf pending.clientId) ∧
    (∀ e ∈ M.log, ∀ registry, e.call.call.policy = some registry →
      (e.reply.isOk = true → e.call.call.Agreed P registry e.before) ∧
      (¬e.call.call.Agreed P registry e.before →
        e.reply.isOk = false ∧ e.after = e.before)) ∧
    ∀ keep : Entry → Bool,
      (∀ e ∈ M.log, keep e = false → ∃ registry, e.call.call.policy = some registry ∧
        ¬e.call.call.Agreed P registry e.before) →
      runAll (program P) ((M.log.filter keep).map (·.call)) Sql.Db.empty =
        ((M.log.filter keep).map (·.reply), M.db) := by
  refine ⟨⟨fun R clientId hdeclared => R.bindingOf_declared hdeclared clientId,
    fun R R' now snapshot scopes resources allowRefresh => R.bindingOf_projectCimd⟩,
    fun e₀ he₀ R now request pending state nonce allow hpending hcall => ?_,
    fun e he registry hpolicy => ?_, fun keep hkeep => ?_⟩
  · have hrows : ∀ row ∈ M.db.rows .browserAuthorizations,
        BrowserRow.id row = e₀.call.tape.uuid 0 →
        (BrowserRow.toConsentRow row).cimdBinding = R.bindingOf pending.clientId :=
      fun row hrow hid =>
        (begun_binding h he₀ hcall hrow hid).trans (validatePending_binding hpending)
    refine ⟨hrows, fun e he session handle registry happroves hid code hcode hissued => ?_⟩
    exact issued_binding h he happroves (fun row hrow hrowid => hrows row hrow (hrowid.trans hid))
      hcode hissued
  · have hend := entry_agreed h he hpolicy
    refine ⟨fun hok => hend.resolve_right fun hno => ?_, fun hno => hend.resolve_left hno⟩
    rw [hno.1] at hok
    cases hok
  · refine (serial_reachable (lawful P) h).atomic.runAll_filter fun e he hno => ?_
    obtain ⟨registry, hpolicy, hdisagrees⟩ := hkeep e he hno
    exact ((entry_agreed h he hpolicy).resolve_left hdisagrees).2

namespace Sample

/-- The registry in which the client of the grant has become a metadata client. -/
def changedRegistry : ClientRegistry where
  clients := [client]
  userinfoResource := none
  dynamic := some ⟨⟨⟨"app", "App", [], true⟩, 1000⟩, ⟨1, "app", [], true⟩⟩
  distinct := registry.distinct

/-- A consent is approved under a changed policy and then under the one it began with. -/
def changedSteps : List Step :=
  callbackSteps ++
    [(.completeCallback "claim" identity ⟨3600, 0⟩ (some registry), [.cookie, .csrf]),
     (.approve ⟨"cookie", 6, 3603 * second⟩ ⟨0, "csrf"⟩ changedRegistry, [.late]),
     (.approve ⟨"cookie", 6, 3603 * second⟩ ⟨0, "csrf"⟩ registry, [.granted])]

end Sample

/-- The approval under the changed policy is as if it had not been made. -/
theorem client_bindings_changed :
    (Sample.machine Sample.changedSteps).log.map (fun e => e.reply.isOk) =
      [true, true, true, true, false, true] ∧
    ∃ e ∈ (Sample.machine Sample.changedSteps).log, ∃ registry,
      e.call.call.policy = some registry ∧
      ¬e.call.call.Agreed Sample.platform registry e.before ∧ e.reply.isOk = false ∧
      e.after = e.before := by
  have hreach : Reachable Sample.platform (Sample.machine Sample.changedSteps) :=
    Sample.reachable (by decide)
  obtain ⟨_, _, hagreed, _⟩ := client_bindings Sample.platform hreach
  obtain ⟨hok, e, he, hpolicy, hgrant⟩ :
      (Sample.machine Sample.changedSteps).log.map (fun e => e.reply.isOk) =
        [true, true, true, true, false, true] ∧
      ∃ e ∈ (Sample.machine Sample.changedSteps).log,
        (e.call.call.policy.map fun r => r.map fun R => (R.bindingOf "app").isSome) =
          some (some true) ∧
        ((e.call.call.grantOf Sample.platform e.before).map fun g => (g.1, g.2.isNone)) =
          some ("app", true) := by
    decide +kernel
  obtain ⟨registry, hcall, hregistry⟩ := Option.map_eq_some_iff.mp hpolicy
  obtain ⟨R, rfl, hbinding⟩ := Option.map_eq_some_iff.mp hregistry
  have hno : ¬e.call.call.Agreed Sample.platform (some R) e.before := by
    rintro ⟨clientId, stored, hfound, _, hstored⟩
    rw [hfound] at hgrant
    obtain ⟨rfl, hnone⟩ := Prod.mk.inj (Option.some.inj hgrant)
    rw [← hstored] at hbinding
    cases stored with
    | none => cases hbinding
    | some j => cases hnone
  obtain ⟨hfails, hsame⟩ := (hagreed e he (some R) hcall).2 hno
  exact ⟨hok, e, he, some R, hcall, hno, hfails, hsame⟩

end Eri
