/-
  File:      Eri/Scopes.lean
  Subject:   The scope parameter at two endpoints (src/web.rs): /authorize drops the empty parts
             of its text, the token endpoint keeps them.

  * `Separated`, `separated_iff` -- texts without empty parts;
  * `ReadAlike` -- a text is accepted for what it was stored for, and no text with other scopes;
  * `stated_scopes` -- what stating scopes does to an exchange or a rotation;
  * `StoredFor`, `code_storedFor` -- the text that a grant was stored for, in any run;
  * `scope_parameter` -- **the endpoints read alike exactly the texts without empty parts**.
-/
import Eri.Consent
import Eri.TokenEndpoint
import Eri.TokenRequests

namespace Eri

open Sql

/-! ## 1. Parts of a text -/

section Parts

variable {α : Type} {a : α} {l : List α}

/-- **No part is empty**: what begins the text and what follows a separator is no separator. -/
def Separated (a : α) (l : List α) : Prop :=
  (∃ c, l.head? = some c ∧ c ≠ a) ∧ ∀ x r, l = x ++ a :: r → ∃ c, r.head? = some c ∧ c ≠ a

/-- What begins a text without empty parts. -/
theorem head_of_parts [BEq α] [LawfulBEq α] (h : [] ∉ l.splitOn a) :
    ∃ c, l.head? = some c ∧ c ≠ a := by
  cases l with
  | nil => exact absurd (List.mem_singleton_self []) h
  | cons c l =>
      refine ⟨c, rfl, ?_⟩
      rintro rfl
      have hcut := List.splitOn_append_cons_self (a := c) [] l
      rw [List.nil_append] at hcut
      rw [hcut] at h
      exact h (List.mem_append_left _ (List.mem_singleton_self []))

theorem separated_iff [BEq α] [LawfulBEq α] : Separated a l ↔ [] ∉ l.splitOn a := by
  constructor
  · intro h
    induction hlength : l.length using Nat.strong_induction_on generalizing l with
    | _ n ih =>
      obtain ⟨⟨c, hc, hne⟩, hafter⟩ := h
      by_cases hmem : a ∈ l
      · -- the first part, and the parts of the rest
        obtain ⟨x, r, rfl, hfirst⟩ := List.eq_append_cons_of_mem hmem
        rw [List.splitOn_append_cons_self_of_not_mem hfirst, List.mem_cons, not_or]
        constructor
        · rintro rfl
          exact hne (Option.some.inj hc).symm
        · refine ih r.length (by simp [← hlength]; omega) ⟨hafter x r rfl, ?_⟩ rfl
          rintro y t rfl
          exact hafter (x ++ a :: y) t (by simp)
      · rw [List.splitOn_eq_singleton hmem, List.mem_singleton]
        rintro rfl
        cases hc
  · refine fun h => ⟨head_of_parts h, fun x r hl => head_of_parts fun hmem => h ?_⟩
    rw [hl, List.splitOn_append_cons_self]
    exact List.mem_append_right _ hmem

end Parts

namespace Web

/-! ## 2. Two readings -/

/-- The scopes /authorize reads. -/
def authorizeScopes (scope : String) : List String :=
  ((scope.toList.splitOn ' ').filter fun v => !v.isEmpty).map String.ofList

/-- The scopes a text names. -/
def namedScopes (scope : String) : Finset String := (authorizeScopes scope).toFinset

/-- **A text is accepted for the scopes it was stored as**, and no text with other scopes is. -/
def ReadAlike (scope : String) (stored : List String) : Prop :=
  sameScopes (splitScopes scope) stored = true ∧
    ∀ other, namedScopes other ≠ namedScopes scope →
      sameScopes (splitScopes other) stored = false

theorem ofList_eq_empty {l : List Char} : String.ofList l = "" ↔ l = [] := by
  rw [← String.toList_inj, String.toList_ofList]
  exact Iff.rfl

/-- Both readings of a text agree when no part is empty. -/
theorem authorizeScopes_eq {scope : String} (h : "" ∉ splitScopes scope) :
    authorizeScopes scope = splitScopes scope := by
  unfold authorizeScopes splitScopes
  rw [List.filter_eq_self.mpr]
  intro part hpart
  rw [Bool.not_eq_true', List.isEmpty_eq_false_iff]
  rintro rfl
  exact h (List.mem_map_of_mem (f := String.ofList) hpart)

theorem empty_notMem_splitScopes {scope : String} :
    "" ∉ splitScopes scope ↔ Separated ' ' scope.toList := by
  rw [separated_iff, splitScopes, List.mem_map]
  constructor
  · exact fun h hmem => h ⟨[], hmem, rfl⟩
  · rintro h ⟨part, hpart, hempty⟩
    rw [ofList_eq_empty.mp hempty] at hpart
    exact h hpart

section Accepted

variable {P : Platform} {R : ClientRegistry} {now : Instant} {a : AuthorizeParams}
  {pending : PendingAuthorizationGrant} {scope : String}

/-- The scopes of an accepted request: distinct tokens, stored in order. -/
structure Tokens (scopes stored : List String) : Prop where
  perm : scopes.Perm stored
  distinct : stored.Nodup
  nonempty : "" ∉ stored

theorem tokens_of_accepted (h : R.validatePending P now a.request = .ok pending) :
    Tokens a.scopes pending.scopes := by
  obtain ⟨-, -, client, chosen, hadmits, rfl⟩ := validatePendingParts_iff.mp h
  have honce : a.scopes.Nodup := card_eq_length_iff.mp hadmits.once
  have hperm : a.scopes.Perm (inOrder a.scopes) := by
    unfold inOrder
    rw [List.dedup_eq_self.mpr honce]
    exact (List.perm_insertionSort (· ≤ ·) a.scopes).symm
  refine ⟨hperm, hperm.nodup_iff.mp honce, fun hempty => ?_⟩
  have hvalid := hadmits.tokens "" (List.mem_toFinset.mpr (hperm.mem_iff.mpr hempty))
  exact absurd hvalid (by decide)

/-- **A text is accepted for what it was stored as** exactly when no part is empty. -/
theorem sameScopes_own {stored : List String} (h : Tokens (authorizeScopes scope) stored) :
    sameScopes (splitScopes scope) stored = true ↔ Separated ' ' scope.toList := by
  rw [sameScopes_iff h.distinct, ← empty_notMem_splitScopes]
  constructor
  · exact fun hperm hempty => h.nonempty (hperm.mem_iff.mp hempty)
  · exact fun hnone => authorizeScopes_eq hnone ▸ h.perm

/-- A text with other scopes never is. -/
theorem sameScopes_other {stored : List String} {other : String}
    (h : Tokens (authorizeScopes scope) stored) (hother : namedScopes other ≠ namedScopes scope) :
    sameScopes (splitScopes other) stored = false := by
  rw [Bool.eq_false_iff]
  intro hsame
  have hperm := (sameScopes_iff h.distinct).mp hsame
  have hnone : "" ∉ splitScopes other := fun hempty => h.nonempty (hperm.mem_iff.mp hempty)
  apply hother
  unfold namedScopes
  rw [authorizeScopes_eq hnone]
  exact List.toFinset_eq_of_perm _ _ (hperm.trans h.perm.symm)

theorem readAlike_iff {stored : List String} (h : Tokens (authorizeScopes scope) stored) :
    ReadAlike scope stored ↔ Separated ' ' scope.toList :=
  (and_iff_left fun _ hother => sameScopes_other h hother).trans (sameScopes_own h)

/-- The text of an accepted request. -/
theorem tokens_of_read {q : List (String × String)} (ha : readAuthorize q = .ok a)
    (hscope : one q "scope" = some scope) (h : R.validatePending P now a.request = .ok pending) :
    Tokens (authorizeScopes scope) pending.scopes := by
  obtain ⟨scope', hscope', hscopes⟩ := (readAuthorize_reads ha).scopes
  obtain rfl := Option.some.inj (hscope.symm.trans hscope')
  have hscopes : a.scopes = authorizeScopes scope := hscopes
  rw [← hscopes]
  exact tokens_of_accepted h

end Accepted

end Web

/-! ## 3. Calls that state scopes -/

/-- The call with other scopes stated, or none. -/
def Call.stating (call : Call) (scopes : Option (List String)) : Call :=
  match call with
  | .exchangeCodeRequest raw clientId redirectUri resource verifier _ registry =>
      .exchangeCodeRequest raw clientId redirectUri resource verifier scopes registry
  | .rotateRefreshRequest raw clientId resource _ registry =>
      .rotateRefreshRequest raw clientId resource scopes registry
  | call => call

/-- The scopes of the code or the family that the call finds. -/
def Call.grantScopes (P : Platform) (db : Db) : Call → Option (List String)
  | .exchangeCodeRequest raw clientId redirectUri .. =>
      ((db.rows .authorizationCodes).find? fun c => c.codeHash = secretHash P raw &&
        c.clientId = clientId && c.redirectUri = redirectUri).map (·.scopes)
  | .rotateRefreshRequest raw clientId .. =>
      (findMember db (secretHash P raw)).bind fun mf =>
        if mf.2.clientId = clientId then some mf.2.scopes else none
  | _ => none

section Stating

variable {P : Platform} {db : Db} {t : Tape} {R : ClientRegistry} {raw clientId : String}
  {resource : Option String} {stored scopes : List String}

theorem exchange_stated {redirectUri verifier : String}
    (hfound : Call.grantScopes P db (.exchangeCodeRequest raw clientId redirectUri resource
      verifier (some scopes) R) = some stored) :
    (sameScopes scopes stored = true →
      (exchangeCodeRequest P t raw clientId redirectUri resource verifier (some scopes) R).tx.run
          db =
        (exchangeCodeRequest P t raw clientId redirectUri resource verifier none R).tx.run db) ∧
    (sameScopes scopes stored = false →
      (exchangeCodeRequest P t raw clientId redirectUri resource verifier (some scopes) R).tx.run
        db = (.error .invalidGrant, db)) := by
  obtain ⟨code, hcode, rfl⟩ := Option.map_eq_some_iff.mp hfound
  have hfind := congrArg (Option.map AuthorizationCodeRow.toCodeRow) hcode
  constructor
  · intro hsame
    have hagree : (exchangeCodeRequest P t raw clientId redirectUri resource verifier
        (some scopes) R).tx.Agree (exchangeCodeRequest P t raw clientId redirectUri resource
        verifier none R).tx db ⟨db, []⟩ := by
      refine agree_selectOr fun found hrow => ?_
      obtain rfl : found = code.toCodeRow := Option.some.inj (hrow.symm.trans hfind)
      exact agree_ensure_iff (and_congr_right fun _ => ⟨fun _ => nofun, fun _ s hs =>
        Option.some.inj hs ▸ hsame⟩)
    exact hagree
  · intro hother
    have hpost : (exchangeCodeRequest P t raw clientId redirectUri resource verifier
        (some scopes) R).tx.Post db ⟨db, []⟩ fun r d => (r, d) = (.error .invalidGrant, db) := by
      refine (post_selectOr_some hfind).mpr ((post_ensure ..).mpr ⟨fun hall => ?_, fun _ => rfl⟩)
      rw [hall.2 scopes rfl] at hother
      cases hother
    exact hpost

theorem rotate_stated
    (hfound : Call.grantScopes P db (.rotateRefreshRequest raw clientId resource (some scopes) R) =
      some stored) :
    (sameScopes scopes stored = true →
      (rotateRefreshRequest P t raw clientId resource (some scopes) R).tx.run db =
        (rotateRefreshRequest P t raw clientId resource none R).tx.run db) ∧
    (sameScopes scopes stored = false →
      (rotateRefreshRequest P t raw clientId resource (some scopes) R).tx.run db =
        (.error .invalidGrant, db)) := by
  obtain ⟨mf, hmember, hscopes⟩ := Option.bind_eq_some_iff.mp hfound
  obtain ⟨hclient, hstored⟩ := Option.ite_none_right_eq_some.mp hscopes
  have hfind : ((findMember db (secretHash P raw)).bind fun mf =>
      if mf.2.clientId = clientId then some (mf.2.scopes, mf.2.resource) else none) =
      some (stored, mf.2.resource) := by
    rw [hmember, Option.bind_some, if_pos hclient, Option.some.inj hstored]
  constructor
  · intro hsame
    have hagree : (rotateRefreshRequest P t raw clientId resource (some scopes) R).tx.Agree
        (rotateRefreshRequest P t raw clientId resource none R).tx db ⟨db, []⟩ := by
      refine agree_selectOr fun found hrow => ?_
      obtain rfl := Option.some.inj (hrow.symm.trans hfind)
      exact agree_ensure_iff (and_congr_right fun _ => and_congr_left fun _ => ⟨fun _ => nofun,
        fun _ s hs => Option.some.inj hs ▸ hsame⟩)
    exact hagree
  · intro hother
    have hpost : (rotateRefreshRequest P t raw clientId resource (some scopes) R).tx.Post db
        ⟨db, []⟩ fun r d => (r, d) = (.error .invalidGrant, db) := by
      refine (post_selectOr_some hfind).mpr ((post_ensure ..).mpr ⟨fun hall => ?_, fun _ => rfl⟩)
      rw [hall.2.1 scopes rfl] at hother
      cases hother
    exact hpost

/-- **What stating scopes does**: nothing, when they are those of the grant; else the call is
    refused without a trace. -/
theorem stated_scopes {call : Call} (hfound : call.grantScopes P db = some stored)
    (hstated : call.statedScopes = some (some scopes)) :
    (sameScopes scopes stored = true →
      (program P ⟨call, t⟩).run db = (program P ⟨call.stating none, t⟩).run db) ∧
    (sameScopes scopes stored = false →
      (program P ⟨call, t⟩).run db = (.exchanged (.error .invalidGrant), db)) := by
  cases call with
  | exchangeCodeRequest raw clientId redirectUri resource verifier stated registry =>
      cases hstated
      obtain ⟨hsame, hother⟩ := exchange_stated (t := t) hfound
      refine ⟨fun h => ?_, fun h => ?_⟩
      · simp only [program, Call.stating, run_map, hsame h]
      · simp only [program, run_map, hother h]
  | rotateRefreshRequest raw clientId resource stated registry =>
      cases hstated
      obtain ⟨hsame, hother⟩ := rotate_stated (t := t) hfound
      refine ⟨fun h => ?_, fun h => ?_⟩
      · simp only [program, Call.stating, run_map, hsame h]
      · simp only [program, run_map, hother h]
  | _ => cases hfound

end Stating

/-- A code found by a call, or that of a family, has the scopes the call is about. -/
theorem grantScopes_code {P : Platform} {db : Db} (hI : (layout P).Integrity db) {call : Call}
    {stored : List String} (h : call.grantScopes P db = some stored) :
    ∃ code ∈ db.rows .authorizationCodes, PresentsGrant P db call code ∧
      (AuthorizationCodeRow.toCodeRow code).scopes = stored := by
  cases call with
  | exchangeCodeRequest raw clientId redirectUri resource verifier stated registry =>
      obtain ⟨code, hcode, rfl⟩ := Option.map_eq_some_iff.mp h
      have hfound := List.find?_some hcode
      simp only [Bool.and_eq_true, decide_eq_true_eq] at hfound
      refine ⟨code, find_mem (t := .authorizationCodes) hcode, ⟨fun raw' hraw => ?_, nofun⟩, rfl⟩
      cases hraw
      exact hfound.1.1
  | rotateRefreshRequest raw clientId resource stated registry =>
      obtain ⟨⟨m, f⟩, hmember, hscopes⟩ := Option.bind_eq_some_iff.mp h
      obtain ⟨_, hstored⟩ := Option.ite_none_right_eq_some.mp hscopes
      obtain rfl := Option.some.inj hstored
      obtain ⟨hm, hf⟩ := findMember_family hmember
      have hmem := find_mem (t := .refreshFamilies) hf
      obtain ⟨code, hcode, hdescends, _⟩ := (hI.ok .refreshFamilies f hmem).code
      refine ⟨code, hcode, ⟨nofun, fun raw' hraw => ?_⟩, hdescends.scopes.symm⟩
      cases hraw
      exact ⟨m, find_mem (t := .refreshTokenMembers) hm, f, hmem,
        of_decide_eq_true (List.find?_some hm :), of_decide_eq_true (List.find?_some hf :),
        hdescends.source⟩
  | _ => cases h

namespace Web

/-! ## 4. What a grant was stored for -/

section Stored

variable {C : HttpCrates} {W : Server}

/-- The scope text of an authorization request. -/
def ScopeText (C : HttpCrates) (req : HttpRequest) (a : AuthorizeParams) (scope : String) :
    Prop :=
  ∃ raw headers q, req.authorize = some (raw, headers) ∧ pairs C raw 8192 = some q ∧
    readAuthorize q = .ok a ∧ one q "scope" = some scope

/-- **The text a code was stored for**: that of the request its transaction was started for. -/
def StoredFor (C : HttpCrates) (W : Server) (code : CodeRow) (scope : String) : Prop :=
  ∃ row ∈ W.store.db.rows .browserAuthorizations, code.Of (BrowserRow.toConsentRow row) ∧
    ∃ w a R pending, Origin C W row w a R pending ∧ ScopeText C w.task.2 a scope

/-- **Every code was stored for a text.** -/
theorem code_storedFor (hW : Online C W) {code : AuthorizationCodeRow}
    (hcode : code ∈ W.store.db.rows .authorizationCodes) :
    ∃ scope, StoredFor C W code.toCodeRow scope := by
  obtain ⟨e, he, _, _, hissued, hway⟩ := code_cases hW hcode
  obtain ⟨session, handle, R, hcall⟩ : ∃ session handle R,
      e.call.call.approves = some (session, handle, R) := by
    rcases hway with ⟨session, handle, R, hcall, _⟩ | ⟨session, handle, R, _, hcall, _⟩
    · exact ⟨session, handle, R, by rw [hcall]; rfl⟩
    · exact ⟨session, handle, R, by rw [hcall]; rfl⟩
  obtain ⟨row, hrow, _, _, hof⟩ := issued_of hW.reachable he hcall hissued
  obtain ⟨w, a, R, pending, ho⟩ := row_origin hW hrow
  obtain ⟨raw, headers, q, hreq, hpairs, ha⟩ := ho.starts.asked
  obtain ⟨scope, hscope, _⟩ := (readAuthorize_reads ha).scopes
  exact ⟨scope, row, hrow, hof, w, a, R, pending, ho, raw, headers, q, hreq, hpairs, ha, hscope⟩

/-- It names the scopes of the code. -/
theorem StoredFor.tokens (hW : Online C W) {code : CodeRow} {scope : String}
    (h : StoredFor C W code scope) : Tokens (authorizeScopes scope) code.scopes := by
  obtain ⟨row, hrow, hof, w, a, R, pending, ho, raw, headers, q, _, _, ha, hscope⟩ := h
  obtain ⟨now, hpending⟩ := ho.starts.pending
  obtain ⟨_, hconsent⟩ := ho.consent hW hrow
  have hscopes : code.scopes = pending.scopes := by
    rw [hof.scopes, hconsent]
    rfl
  rw [hscopes]
  exact tokens_of_read ha hscope hpending

/-! ## 5. Results -/

/-- **The two endpoints read a scope text alike exactly if no part of it is empty**: it neither
    begins nor ends with a space and has no two spaces together. So it is for any request that
    any policy accepts, and for the text of every code in any run. Where it is so, stating the
    text makes no difference to an exchange of the code or to a rotation in its family; a text
    with other scopes is always refused there. The token endpoint makes no other calls. -/
theorem scope_parameter (hW : Online C W) :
    (∀ (P : Platform) (R : ClientRegistry) now q a scope pending, readAuthorize q = .ok a →
      one q "scope" = some scope → R.validatePending P now a.request = .ok pending →
      (ReadAlike scope pending.scopes ↔ Separated ' ' scope.toList)) ∧
    (∀ code ∈ W.store.db.rows .authorizationCodes,
      (∃ scope, StoredFor C W (AuthorizationCodeRow.toCodeRow code) scope) ∧
      ∀ scope, StoredFor C W (AuthorizationCodeRow.toCodeRow code) scope →
        (ReadAlike scope (AuthorizationCodeRow.toCodeRow code).scopes ↔
          Separated ' ' scope.toList)) ∧
    (∀ call t stored other, call.grantScopes C.toPlatform W.store.db = some stored →
      call.statedScopes = some (some (splitScopes other)) →
      ∃ code ∈ W.store.db.rows .authorizationCodes,
        PresentsGrant C.toPlatform W.store.db call code ∧
        ∀ scope, StoredFor C W (AuthorizationCodeRow.toCodeRow code) scope →
          (other = scope → Separated ' ' scope.toList →
            (program C.toPlatform ⟨call, t⟩).run W.store.db =
              (program C.toPlatform ⟨call.stating none, t⟩).run W.store.db) ∧
          (namedScopes other ≠ namedScopes scope →
            (program C.toPlatform ⟨call, t⟩).run W.store.db =
              (.exchanged (.error .invalidGrant), W.store.db))) ∧
    ∀ (K : KeyCrates) (keys : SigningKeys K) p now jti headers body,
      Process.Meets (I := surroundings) (p.Answers C.toPlatform)
        (fun _ call => ∃ q scope, pairsBytes C body 8192 = some q ∧
          optional q "scope" = .ok scope ∧ call.statedScopes = some (scope.map splitScopes))
        (token C keys p now jti headers body) [] fun _ _ => True := by
  have hI := reachable_integrity hW.reachable
  refine ⟨fun P R now q a scope pending ha hscope hpending =>
      readAlike_iff (tokens_of_read ha hscope hpending),
    fun code hcode => ⟨code_storedFor hW hcode, fun scope hstored =>
      readAlike_iff (hstored.tokens hW)⟩,
    fun call t stored other hfound hstated => ?_, fun K keys p now jti headers body => ?_⟩
  · obtain ⟨code, hcode, hpresents, rfl⟩ := grantScopes_code hI hfound
    obtain ⟨hsame, hother⟩ := stated_scopes (t := t) hfound hstated
    refine ⟨code, hcode, hpresents, fun scope hstored => ⟨?_, fun hne => ?_⟩⟩
    · rintro rfl hparts
      exact hsame ((sameScopes_own (hstored.tokens hW)).mpr hparts)
    · exact hother (sameScopes_other (hstored.tokens hW) hne)
  · refine ((token_meets []).allow fun h call hcall => ?_).mono fun _ _ _ _ => trivial
    obtain ⟨q, a, R, initial, hread, _, hgrant⟩ := hcall
    obtain ⟨hpairs, _, _, scope, hscope, hscopes⟩ := readToken_ok hread
    exact ⟨q, scope, hpairs, hscope, hscopes ▸ grantCall_ok hgrant⟩

/-! A browser that signs in for a scope text, with one space between the scopes and with two. -/

namespace Sample

def scopeQuery (scope : String) : String :=
  "client_id=app&redirect_uri=https://app.example/callback&response_type=code" ++
    "&code_challenge_method=S256&code_challenge=E9Melhoa2OwvFrEMTJguCHaoeK1t8URWbuGJSstw-cM" ++
    "&scope=" ++ scope ++ "&resource=https://api.example"

def scopeCallback : HttpRequest :=
  .callback (some ("code=google&state=" ++ secret 0))
    [("cookie", utf8 (txCookie 0 false ++ "=" ++ secret 1))]

def scopeSignIn (scope : String) : List (Provider × HttpRequest) :=
  [(localProvider, .authorizeGet (some (scopeQuery scope)) []), (localProvider, scopeCallback)]

/-- The exchange of the code, stating a text with two spaces. -/
def spacedExchange : Call :=
  .exchangeCodeRequest (secret 24) "app" "https://app.example/callback" none Eri.Sample.verifier
    (some (splitScopes "openid  offline_access")) Eri.Sample.registry

/-- The text of the only authorization request. -/
theorem storedFor_eq {written scope : String} {code : CodeRow}
    (h : StoredFor serverCrates (served (scopeSignIn written)) code scope) :
    (pairs serverCrates (scopeQuery written) 8192).bind (one · "scope") = some scope := by
  obtain ⟨row, hrow, hof, w, a, R, pending, ho, raw, headers, q, hreq, hpairs, _, hscope⟩ := h
  have htask : w.task ∈ scopeSignIn written :=
    served_tasks (scopeSignIn written) ▸ List.mem_map_of_mem ho.worker
  rcases List.mem_cons.mp htask with htask | htask
  · rw [htask] at hreq
    cases hreq
    have hpairs : pairs serverCrates (scopeQuery written) 8192 = some q := hpairs
    rw [hpairs, Option.bind_some, hscope]
  · rw [List.mem_singleton.mp htask] at hreq
    cases hreq

/-- The runs end with a code of both scopes. -/
theorem scopeSignIn_run : ∀ written ∈ ["openid%20offline_access", "openid%20%20offline_access"],
    (served (scopeSignIn written)).store.calls.length ≤ 7 ∧
      ((served (scopeSignIn written)).store.db.rows .authorizationCodes).isEmpty = false ∧
      spacedExchange.grantScopes serverCrates.toPlatform (served (scopeSignIn written)).store.db =
        some ["offline_access", "openid"] := by
  decide +kernel

theorem scopeSignIn_code {written : String}
    (h : written ∈ ["openid%20offline_access", "openid%20%20offline_access"]) :
    Online serverCrates (served (scopeSignIn written)) ∧
      ∃ code, code ∈ (served (scopeSignIn written)).store.db.rows .authorizationCodes := by
  obtain ⟨hlength, hcodes, -⟩ := scopeSignIn_run written h
  refine ⟨online_served hlength, List.exists_mem_of_ne_nil _ fun hnil => ?_⟩
  rw [hnil] at hcodes
  cases hcodes

end Sample

theorem scope_parameter_signIn : ∃ W, ∃ code ∈ W.store.db.rows .authorizationCodes,
    StoredFor Sample.serverCrates W (AuthorizationCodeRow.toCodeRow code)
      "openid offline_access" ∧
    ReadAlike "openid offline_access" (AuthorizationCodeRow.toCodeRow code).scopes := by
  obtain ⟨hW, code, hcode⟩ := Sample.scopeSignIn_code (List.mem_cons_self ..)
  obtain ⟨-, hcodes, -⟩ := scope_parameter hW
  obtain ⟨⟨scope, hstored⟩, hall⟩ := hcodes code hcode
  obtain rfl : "openid offline_access" = scope :=
    Option.some.inj (Eq.trans (by decide +kernel) (Sample.storedFor_eq hstored))
  exact ⟨_, code, hcode, hstored, (hall _ hstored).mpr (separated_iff.mpr (by decide +kernel))⟩

/-- What was accepted with two spaces is refused with two spaces. -/
theorem spaced_scope_refused : ∃ W, Online Sample.serverCrates W ∧
    (∃ code ∈ W.store.db.rows .authorizationCodes,
      StoredFor Sample.serverCrates W (AuthorizationCodeRow.toCodeRow code)
        "openid  offline_access" ∧
      ¬ReadAlike "openid  offline_access" (AuthorizationCodeRow.toCodeRow code).scopes) ∧
    ∀ t, (program Sample.serverCrates.toPlatform ⟨Sample.spacedExchange, t⟩).run W.store.db =
      (.exchanged (.error .invalidGrant), W.store.db) := by
  obtain ⟨hW, code, hcode⟩ :=
    Sample.scopeSignIn_code (List.mem_cons_of_mem _ (List.mem_cons_self ..))
  obtain ⟨scope, hstored⟩ := code_storedFor hW hcode
  obtain rfl : "openid  offline_access" = scope :=
    Option.some.inj (Eq.trans (by decide +kernel) (Sample.storedFor_eq hstored))
  refine ⟨_, hW, ⟨code, hcode, hstored, fun halike => ?_⟩, fun t => ?_⟩
  · exact absurd ((readAlike_iff (hstored.tokens hW)).mp halike)
      (separated_iff.not.mpr (by decide +kernel))
  · obtain ⟨-, -, hfound⟩ := Sample.scopeSignIn_run "openid%20%20offline_access"
      (List.mem_cons_of_mem _ (List.mem_cons_self ..))
    exact (stated_scopes hfound rfl).2 (by decide +kernel)

end Stored

end Web

end Eri
