/-
  File:      Eri/Consent.lean
  Subject:   Where authorization codes come from, in runs of the server: from a consent form, or
             from a policy that needs none.

  * `PreAuthorized`, `preAuthorizes_iff` -- the policy that needs no form;
  * `Origin.allows` -- what a transaction recorded of the policy of its request;
  * `ByForm`, `ByPolicy`, `code_cases` -- the two ways to a code;
  * `no_code_without_consent` -- **a code without a form needs a policy for it twice**.
-/
import Eri.Returns

namespace Eri

open Sql

/-! ## 1. Policies -/

/-- **The policy that needs no form**: a static client that is pre-authorized, an https redirect
    that an app claims, byte for byte, and a resource and scopes the client declares. -/
structure PreAuthorized (R : ClientRegistry) (pending : PendingAuthorizationGrant) : Prop where
  request : pending.dynamic = none
  static : R.dynamic = none
  client : ∃ c, R.get pending.clientId = some c ∧ c.authorizationFlow = .googlePreauthorized ∧
    (∃ r ∈ c.redirects, r.kind = .appClaimedHttps ∧ r.uri = pending.redirectUri) ∧
    pending.resource ∈ c.resources ∧ ∀ scope ∈ pending.scopes, scope ∈ c.scopes

theorem preAuthorizes_iff {R : ClientRegistry} {pending : PendingAuthorizationGrant} :
    R.preAuthorizes pending = true ↔ PreAuthorized R pending := by
  have hclient : ∀ c : FirstPartyClient,
      (c.authorizationFlow = .googlePreauthorized &&
        (c.redirects.any fun r => r.kind = .appClaimedHttps && r.uri = pending.redirectUri) &&
        decide (pending.resource ∈ c.resources) &&
        pending.scopes.all fun scope => decide (scope ∈ c.scopes)) = true ↔
      c.authorizationFlow = .googlePreauthorized ∧
        (∃ r ∈ c.redirects, r.kind = .appClaimedHttps ∧ r.uri = pending.redirectUri) ∧
        pending.resource ∈ c.resources ∧ ∀ scope ∈ pending.scopes, scope ∈ c.scopes := by
    intro c
    simp only [Bool.and_eq_true, decide_eq_true_eq, List.any_eq_true, List.all_eq_true,
      and_assoc]
  unfold ClientRegistry.preAuthorizes
  rw [Bool.and_eq_true, Bool.and_eq_true, Option.isNone_iff_eq_none, Option.isNone_iff_eq_none]
  constructor
  · rintro ⟨⟨hrequest, hstatic⟩, hany⟩
    obtain ⟨c, hc, hall⟩ := (Option.any_eq_true _ _).mp hany
    exact ⟨hrequest, hstatic, c, hc, (hclient c).mp hall⟩
  · rintro ⟨hrequest, hstatic, c, hc, hall⟩
    exact ⟨⟨hrequest, hstatic⟩, (Option.any_eq_true _ _).mpr ⟨c, hc, (hclient c).mpr hall⟩⟩

namespace Web

/-! ## 2. Origins -/

section Origins

variable {C : HttpCrates} {W : Server}

/-- **What a transaction recorded of its policy.** -/
theorem Origin.allows (hW : Online C W) {row : BrowserRow} {w : Worker} {a : AuthorizeParams}
    {R : ClientRegistry} {pending : PendingAuthorizationGrant}
    (hrow : row ∈ W.store.db.rows .browserAuthorizations)
    (ho : Origin C W row w a R pending) : row.allowPreAuthorization = true ↔
      a.prompt ≠ some "consent" ∧ PreAuthorized R pending := by
  obtain ⟨now, hconsent⟩ := ho.consent hW hrow
  rw [hconsent, ← preAuthorizes_iff]
  show a.allows R pending = true ↔ _
  unfold AuthorizeParams.allows
  rw [Bool.and_eq_true, bne_iff_ne]

end Origins

/-! ## 3. Codes -/

section Codes

variable {C : HttpCrates} {W : Server}

/-- **A code from a consent form**: a worker was sent a form that approves the transaction, with
    its CSRF secret, for the session of the transaction. -/
def ByForm (C : HttpCrates) (W : Server) (e : Entry) (row : BrowserRow) : Prop :=
  ∃ session handle R, e.call.call = .approve session handle R ∧
    (∃ w ∈ W.workers, .called e.thread e.call.call ∈ w.record ∧ Approves C w.task.2 handle) ∧
    row.id = handle.transactionId ∧ row.sessionId = some session.id ∧
    row.csrfHash = some (secretHash C.toPlatform handle.csrf)

/-- **A code from a policy**: the transaction recorded that none is needed, and the policy of the
    call says so of the request that passed again. -/
def ByPolicy (C : HttpCrates) (e : Entry) (row : BrowserRow) : Prop :=
  ∃ session handle R pending, e.call.call = .approvePreAuthorized session handle R ∧
    row.id = handle.transactionId ∧ row.allowPreAuthorization = true ∧
    revalidate C.toPlatform R (e.call.tape.instant 0) (e.call.tape.instant 1) row.toConsentRow =
      .ok pending ∧ PreAuthorized R pending

theorem consents_csrf {P : Platform} {handle : ConsentHandle} {session : Uuid} {row : BrowserRow}
    (h : row.consents P handle session = true) :
    row.csrfHash = some (secretHash P handle.csrf) := by
  unfold BrowserRow.consents at h
  simp only [Bool.and_eq_true, decide_eq_true_eq] at h
  exact h.1.2

/-- The transaction of the call that issues a code. -/
theorem issues_row {P : Platform} {t : Tape} {db : Db} {call : Call} {x : AuthorizationCodeRow}
    (h : Issues P t db call x) :
    (∃ session grant lifetime, call = .issueAuthorizationCode session grant lifetime) ∨
    ∃ session handle R, ∃ row ∈ db.rows .browserAuthorizations,
      BrowserRow.consents P handle session.id row = true ∧
      (call = .approve session handle R ∨ call = .approvePreAuthorized session handle R ∧
        (BrowserRow.toConsentRow row).allowPreAuthorization = true ∧ ∃ pending,
        revalidate P R (t.instant 0) (t.instant 1) (BrowserRow.toConsentRow row) = .ok pending ∧
        PreAuthorized R pending) := by
  cases h with
  | direct => exact Or.inl ⟨_, _, _, rfl⟩
  | approve hp _ _ =>
      exact Or.inr ⟨_, _, _, _, find_mem (t := .browserAuthorizations) hp.locked,
        (List.find?_some hp.locked :), Or.inl rfl⟩
  | approvePreAuthorized hp hpending hallow hpre _ =>
      exact Or.inr ⟨_, _, _, _, find_mem (t := .browserAuthorizations) hp.locked,
        (List.find?_some hp.locked :), Or.inr ⟨rfl, hallow, _, hpending,
          preAuthorizes_iff.mp hpre⟩⟩

/-- **The two ways to a code.** -/
theorem code_cases (hW : Online C W) {code : AuthorizationCodeRow}
    (hcode : code ∈ W.store.db.rows .authorizationCodes) :
    ∃ e ∈ W.store.log, ∃ row ∈ e.before.rows .browserAuthorizations,
      Issued C.toPlatform e code ∧ (ByForm C W e row ∨ ByPolicy C e row) := by
  obtain ⟨e, he, hissued⟩ := reachable_issued hW.reachable code hcode
  obtain ⟨x, hissues, _⟩ := id hissued
  have howner := (keeping hW).owner (lawful C.toPlatform) hW he
  rcases issues_row hissues with ⟨session, grant, lifetime, hcall⟩ |
    ⟨session, handle, R, row, hrow, hconsents, hcall⟩
  · -- no handler issues a code without a transaction
    rcases howner with houtside | ⟨w, hw, hcalled⟩
    · have houtside : elsewhere e.call.call = true := houtside
      rw [hcall] at houtside
      cases houtside
    · obtain ⟨past, _, hmay⟩ := (keeping hW).may_called hw hcalled
      exact absurd hcall (hmay.issues session grant lifetime)
  refine ⟨e, he, row, hrow, hissued, ?_⟩
  rcases hcall with hcall | ⟨hcall, hallow, pending, hpending, hpre⟩
  · rcases howner with houtside | ⟨w, hw, hcalled⟩
    · have houtside : elsewhere e.call.call = true := houtside
      rw [hcall] at houtside
      cases houtside
    · obtain ⟨past, _, hmay⟩ := (keeping hW).may_called hw hcalled
      exact Or.inl ⟨session, handle, R, hcall, ⟨w, hw, hcalled,
        hmay.approves session handle R hcall⟩, consents_id hconsents,
        consents_session hconsents, consents_csrf hconsents⟩
  · exact Or.inr ⟨session, handle, R, pending, hcall, consents_id hconsents, hallow, hpending,
      hpre⟩

/-! ## 4. Results -/

/-- **No code without consent.** A code comes from a form that approves its transaction, or from
    a transaction that recorded that none is needed, under a policy that still says so. It is
    recorded only for a request that did not ask for the form and whose policy needs none; so
    any other transaction gives no code but by the form. -/
theorem no_code_without_consent (hW : Online C W) :
    (∀ code ∈ W.store.db.rows .authorizationCodes, ∃ e ∈ W.store.log,
      ∃ row ∈ e.before.rows .browserAuthorizations, Issued C.toPlatform e code ∧
        (ByForm C W e row ∨ ByPolicy C e row)) ∧
    (∀ row ∈ W.store.db.rows .browserAuthorizations,
      (∃ w a R pending, Origin C W row w a R pending) ∧
      ∀ w a R pending, Origin C W row w a R pending →
        ((BrowserRow.toConsentRow row).allowPreAuthorization = true ↔
          a.prompt ≠ some "consent" ∧ PreAuthorized R pending)) ∧
    ∀ e ∈ W.store.log, ∀ row ∈ e.before.rows .browserAuthorizations, ByPolicy C e row →
      ∀ w a R pending, Origin C W row w a R pending →
        a.prompt ≠ some "consent" ∧ PreAuthorized R pending := by
  refine ⟨fun code hcode => code_cases hW hcode, fun row hrow => ⟨row_origin hW hrow,
    fun w a R pending ho => ho.allows hW hrow⟩, ?_⟩
  intro e he row hrow hpolicy w a R pending ho
  obtain ⟨_, _, _, _, _, _, hallow, _⟩ := hpolicy
  obtain ⟨row', hrow', hid, hconsent, _⟩ := entry_consent hW.reachable he hrow
  have ho' : Origin C W row' w a R pending := ⟨ho.worker, ho.starts, hid.symm ▸ ho.begins⟩
  exact (ho'.allows hW hrow').mp (hconsent ▸ hallow)

/-- A browser that signs in, whose client needs no form. -/
theorem no_code_without_consent_signIn :
    ∃ code ∈ (Sample.served Sample.signIn).store.db.rows .authorizationCodes,
      ∃ e ∈ (Sample.served Sample.signIn).store.log,
        ∃ row ∈ e.before.rows .browserAuthorizations,
          Issued Sample.serverCrates.toPlatform e code ∧
            (ByForm Sample.serverCrates (Sample.served Sample.signIn) e row ∨
              ByPolicy Sample.serverCrates e row) := by
  obtain ⟨req, record, r, hW, hat, hclient⟩ := signIn_ended
  obtain ⟨hcodes, _⟩ := no_code_without_consent hW
  obtain ⟨item, state, hitems, hreturns⟩ := returns_ended hW hat hclient
  have hitem : item = ("code", Sample.secret 24) := by
    injection hitems with hfirst _
    injection hfirst with hname hvalue
    exact Prod.ext hname.symm (Option.some.inj hvalue).symm
  subst hitem
  have hname : "code" ≠ "error" := by decide
  cases hreturns.answerTo hW with
  | own _ _ herror => exact absurd (congrArg Prod.fst herror) hname
  | started houtcome =>
      rcases houtcome.item with ⟨hdenied, _⟩ | ⟨_, _, code, hcode, _⟩
      · exact absurd (congrArg Prod.fst hdenied) hname
      · exact ⟨code, hcode, hcodes code hcode⟩

end Codes

end Web

end Eri
