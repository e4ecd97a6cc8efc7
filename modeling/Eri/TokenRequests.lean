/-
  File:      Eri/TokenRequests.lean
  Subject:   Token requests and the calls they stand for (src/credentials.rs).

  A request may leave out the resource and the scopes: they are read from the stored grant, and
  the policy is asked about it before and during the call. For a grant of the configuration this
  is the call with the stored resource.

  * `sameScopes_iff` -- scopes in any order, each once;
  * `Stored` -- the constraints of the migrations a lookup relies on;
  * `agree_exchange`, `agree_rotate` -- under a static policy that accepts the grant, its checks
    make no difference;
  * **`token_requests`** -- a request is its call, or is refused without a trace.
-/
import Eri.Codes
import Eri.Policy

namespace Eri

open Sql

variable {P : Platform} {db db' : Db} {t : Tape} {R : ClientRegistry}

/-! ## 1. Scopes -/

theorem card_eq_length_iff {l : List String} : l.toFinset.card = l.length ↔ l.Nodup := by
  constructor
  · intro h
    rw [List.card_toFinset] at h
    exact List.dedup_eq_self.mp (List.Sublist.eq_of_length (List.dedup_sublist l) h)
  · exact List.toFinset_card_of_nodup

/-- **Requested scopes pass for the stored ones in any order**, but not twice. -/
theorem sameScopes_iff {requested stored : List String} (h : stored.Nodup) :
    sameScopes requested stored = true ↔ requested.Perm stored := by
  unfold sameScopes
  rw [Bool.and_eq_true, beq_iff_eq, decide_eq_true_eq, card_eq_length_iff]
  constructor
  · rintro ⟨hnodup, hset⟩
    exact List.perm_of_nodup_nodup_toFinset_eq hnodup h hset
  · intro hperm
    exact ⟨hperm.nodup_iff.mpr h, List.toFinset_eq_of_perm _ _ hperm⟩

/-! ## 2. A static policy -/

/-- The policy of the configuration never expires. -/
theorem ensureFresh_static (hR : R.dynamic = none) (now : Instant) :
    R.ensureFresh now = .ok () := by
  simp [ClientRegistry.ensureFresh, hR]

theorem dynamicFor_static (hR : R.dynamic = none) (clientId : String) :
    R.dynamicFor clientId = none := by
  simp [ClientRegistry.dynamicFor, hR]

/-- What it accepts once, it always accepts. -/
theorem validatePendingParts_static (hR : R.dynamic = none) (now later : Instant)
    (clientId redirectUri responseType method challenge : String) (scopes : List String)
    (resource : Option String) :
    R.validatePendingParts P now clientId redirectUri responseType method challenge scopes
        resource =
      R.validatePendingParts P later clientId redirectUri responseType method challenge scopes
        resource := by
  unfold ClientRegistry.validatePendingParts
  simp only [ensureFresh_static hR]

/-- The policy still accepts the grant of a code. -/
def AcceptsCode (P : Platform) (R : ClientRegistry) (code : AuthorizationCodeRow) : Prop :=
  ∃ now p, R.validatePendingParts P now code.clientId code.redirectUri "code" "S256"
    code.codeChallenge code.scopes (some code.resource) = .ok p

section Static

variable {code : AuthorizationCodeRow}

theorem AcceptsCode.validateCode (h : AcceptsCode P R code) (hR : R.dynamic = none)
    (now : Instant) :
    validateCode P (some R) now code.clientId code.redirectUri code.codeChallenge code.scopes
      code.resource = .ok () := by
  obtain ⟨then_, p, hp⟩ := h
  unfold Eri.validateCode
  dsimp only
  rw [validatePendingParts_static hR now then_, hp]
  rfl

theorem AcceptsCode.nodup (h : AcceptsCode P R code) : code.scopes.Nodup := by
  obtain ⟨now, p, hp⟩ := h
  obtain ⟨_, _, client, chosen, hadmits, _⟩ := validatePendingParts_iff.mp hp
  exact card_eq_length_iff.mp hadmits.once

/-- A client of the configuration needs no binding, and has none. -/
theorem checkBinding_static (hR : R.dynamic = none) {clientId : String}
    (hknown : R.containsClient clientId = true) (registry : Option ClientRegistry)
    (hregistry : registry = none ∨ registry = some R) (now : Instant) :
    checkBinding registry now clientId none = .ok () := by
  rcases hregistry with rfl | rfl
  · rfl
  · unfold checkBinding ClientRegistry.validateBinding
    simp [ensureFresh_static hR, dynamicFor_static hR, hknown, bind, Except.bind,
      Except.mapError]

theorem AcceptsCode.known (h : AcceptsCode P R code) : R.containsClient code.clientId = true := by
  obtain ⟨now, p, hp⟩ := h
  obtain ⟨_, _, client, chosen, hadmits, _⟩ := validatePendingParts_iff.mp hp
  simp [ClientRegistry.containsClient, hadmits.known]

end Static

/-! ## 3. Lookups -/

/-- **What the migrations promise of stored grants**: a code has an id and a hash of its own, and
    the session of a family exists. -/
structure Stored (db : Db) : Prop where
  id : ∀ c c' : AuthorizationCodeRow, c ∈ db.rows .authorizationCodes →
    c' ∈ db.rows .authorizationCodes → c.id = c'.id → c = c'
  codeHash : ∀ c c' : AuthorizationCodeRow, c ∈ db.rows .authorizationCodes →
    c' ∈ db.rows .authorizationCodes → c.codeHash = c'.codeHash → c = c'
  session : ∀ f : FamilyRow, f ∈ db.rows .refreshFamilies → ∃ s, findSession db f.sessionId = some s

/-- So do the rows of every run. -/
theorem stored_of_integrity (h : (layout P).Integrity db) : Stored db where
  id _ _ hc hc' e := same_key h hc hc' e
  codeHash _ _ hc hc' e := same_codeHash h hc hc' e
  session f hf := by
    obtain ⟨s, hs, hid, _⟩ := (h.ok .refreshFamilies f hf).session
    exact ⟨s, hid ▸ findSession_of_mem h hs⟩

theorem Stored.find_codeHash (hdb : Stored db) {code : AuthorizationCodeRow}
    (hcode : code ∈ db.rows .authorizationCodes) :
    (db.rows .authorizationCodes).find? (fun c => c.codeHash = code.codeHash) = some code :=
  find?_eq_of_unique hcode (decide_eq_true rfl) fun c hc hp =>
    hdb.codeHash c code hc hcode (of_decide_eq_true hp)

theorem Stored.find_codeId (hdb : Stored db) {code : AuthorizationCodeRow}
    (hcode : code ∈ db.rows .authorizationCodes) :
    (db.rows .authorizationCodes).find? (fun c => c.id = code.id) = some code :=
  find?_eq_of_unique hcode (decide_eq_true rfl) fun c hc hp =>
    hdb.id c code hc hcode (of_decide_eq_true hp)

/-! ## 4. Exchange -/

section Exchange

variable {code : AuthorizationCodeRow} {raw clientId redirectUri verifier : String}

/-- **Under a static policy that accepts the code its checks make no difference.** -/
theorem agree_exchange (hdb : Stored db) (hR : R.dynamic = none)
    (hcode : code ∈ db.rows .authorizationCodes) (hbinding : code.cimdBinding = none)
    (haccepts : AcceptsCode P R code) (hhash : secretHash P raw = code.codeHash) (i j : Nat) :
    (exchangeCodeBound P t i raw clientId redirectUri code.resource verifier (some R)
      Empty.elim).Agree (exchangeCodeBound P t j raw clientId redirectUri code.resource verifier
      none Empty.elim) db ⟨db, []⟩ := by
  have hchecks : ∀ now, checkBinding (some R) now code.clientId code.cimdBinding = .ok () := by
    rw [hbinding]
    exact checkBinding_static hR haccepts.known _ (Or.inr rfl)
  have hnone : ∀ now, checkBinding none now code.clientId code.cimdBinding = .ok () := by
    rw [hbinding]
    exact checkBinding_static hR haccepts.known _ (Or.inl rfl)
  refine agree_selectOr fun seen hseen => ?_
  obtain ⟨row, hrow, rfl⟩ := Option.map_eq_some_iff.mp hseen
  obtain rfl : row = code :=
    Option.some.inj (hrow.symm.trans (hhash ▸ hdb.find_codeHash hcode))
  refine agree_ensure fun hmatches => ?_
  obtain ⟨rfl, rfl, _⟩ := hmatches
  refine agree_lockOr fun session _ => agree_lockOr fun locked _ => ?_
  refine agree_lockOr fun current hcurrent => ?_
  obtain rfl : current = row := Option.some.inj (hcurrent.symm.trans (hdb.find_codeId hcode))
  refine agree_ensure fun _ => ?_
  refine agree_checked (hchecks _) (hnone _) ?_
  refine agree_checked (haccepts.validateCode hR _) rfl ?_
  refine agree_checked (hchecks _) (hnone _) ?_
  refine agree_ite (fun _ => ?_) fun _ => ?_
  · exact agree_update fun _ => agree_checked (hchecks _) (hnone _) (.refl _)
  · refine agree_ensure fun _ => agree_update fun _ => ?_
    refine agree_ite (fun _ => ?_) fun _ => ?_
    · refine agree_insert fun _ => agree_insert fun _ => ?_
      exact agree_checked (hchecks _) (hnone _) (.refl _)
    · exact agree_checked (hchecks _) (hnone _) (.refl _)

/-- What a request may state of a stored grant. -/
def States (resource : Option String) (scopes : Option (List String)) (storedResource : String)
    (storedScopes : List String) : Prop :=
  (∀ r ∈ resource, r = storedResource) ∧ ∀ s ∈ scopes, s.Perm storedScopes

theorem states_iff {resource : Option String} {scopes : Option (List String)}
    {storedResource : String} {storedScopes : List String} (h : storedScopes.Nodup) :
    ((∀ r ∈ resource, r = storedResource) ∧ ∀ s ∈ scopes, sameScopes s storedScopes = true) ↔
      States resource scopes storedResource storedScopes :=
  and_congr_right fun _ => forall₂_congr fun _ _ => sameScopes_iff h

/-- A code presented by another client, or for another redirect, is refused. -/
theorem exchange_mismatch (hdb : Stored db) (hcode : code ∈ db.rows .authorizationCodes)
    (hhash : secretHash P raw = code.codeHash)
    (hother : ¬(code.clientId = clientId ∧ code.redirectUri = redirectUri)) {resource : String} :
    (exchangeCode P t raw clientId redirectUri resource verifier).tx.run db =
      (.error .invalidGrant, db) := by
  have hpost : (exchangeCode P t raw clientId redirectUri resource verifier).tx.Post db ⟨db, []⟩
      fun r d => (r, d) = (.error .invalidGrant, db) := by
    refine (post_selectOr_some (a := code.toCodeRow) ?_).mpr ?_
    · rw [hhash, hdb.find_codeHash hcode]
      rfl
    · refine (post_ensure ..).mpr ⟨fun hmatches => ?_, fun _ => rfl⟩
      exact absurd ⟨hmatches.1, hmatches.2.1⟩ hother
  exact hpost

/-- **A request for a stored code** is the exchange of the code, or is refused without a
    trace. -/
theorem exchangeCodeRequest_run (hdb : Stored db) (hR : R.dynamic = none)
    (hcode : code ∈ db.rows .authorizationCodes) (hbinding : code.cimdBinding = none)
    (haccepts : AcceptsCode P R code) (hhash : secretHash P raw = code.codeHash)
    (resource : Option String) (scopes : Option (List String)) :
    (States resource scopes code.resource code.scopes →
      (exchangeCodeRequest P t raw clientId redirectUri resource verifier scopes R).tx.run db =
        (exchangeCode P t raw clientId redirectUri code.resource verifier).tx.run db) ∧
    (¬States resource scopes code.resource code.scopes →
      (exchangeCodeRequest P t raw clientId redirectUri resource verifier scopes R).tx.run db =
        (.error .invalidGrant, db)) := by
  by_cases hsame : code.clientId = clientId ∧ code.redirectUri = redirectUri
  · obtain ⟨rfl, rfl⟩ := hsame
    -- the code is found by its hash, its client and its redirect
    have hfind : ((db.rows .authorizationCodes).find? fun c => c.codeHash = secretHash P raw &&
        c.clientId = code.clientId && c.redirectUri = code.redirectUri).map (·.toCodeRow) =
        some code.toCodeRow := by
      rw [hhash, find?_eq_of_unique hcode (by simp) fun c hc hp => ?_]
      · rfl
      · simp only [Bool.and_eq_true, decide_eq_true_eq] at hp
        exact hdb.codeHash c code hc hcode hp.1.1
    constructor
    · intro hstates
      have hagree : (exchangeCodeRequest P t raw code.clientId code.redirectUri resource verifier
          scopes R).tx.Agree (exchangeCode P t raw code.clientId code.redirectUri code.resource
          verifier).tx db ⟨db, []⟩ := by
        refine agree_selectOr_some hfind ?_
        refine agree_ensure_pos ((states_iff haccepts.nodup).mpr hstates) ?_
        refine agree_checked_ok (haccepts.validateCode hR _) ?_
        exact agree_exchange hdb hR hcode hbinding haccepts hhash 1 0
      exact hagree
    · intro hno
      have hpost : (exchangeCodeRequest P t raw code.clientId code.redirectUri resource verifier
          scopes R).tx.Post db ⟨db, []⟩ fun r d => (r, d) = (.error .invalidGrant, db) := by
        refine (post_selectOr_some hfind).mpr ((post_ensure ..).mpr ⟨fun hstates => ?_,
          fun _ => rfl⟩)
        exact absurd ((states_iff haccepts.nodup).mp hstates) hno
      exact hpost
  · have hrefused : (exchangeCodeRequest P t raw clientId redirectUri resource verifier scopes
        R).tx.run db = (.error .invalidGrant, db) := by
      have hpost : (exchangeCodeRequest P t raw clientId redirectUri resource verifier scopes
          R).tx.Post db ⟨db, []⟩ fun r d => (r, d) = (.error .invalidGrant, db) := by
        refine (post_selectOr ..).mpr ⟨fun stored hstored => ?_, fun _ => rfl⟩
        obtain ⟨row, hrow, rfl⟩ := Option.map_eq_some_iff.mp hstored
        have hp := List.find?_some hrow
        simp only [Bool.and_eq_true, decide_eq_true_eq] at hp
        have hrow : row = code := hdb.codeHash row code (List.mem_of_find?_eq_some hrow) hcode
          (hp.1.1.trans hhash)
        exact absurd ⟨hrow ▸ hp.1.2, hrow ▸ hp.2⟩ hsame
      exact hpost
    exact ⟨fun _ => hrefused.trans (exchange_mismatch hdb hcode hhash hsame).symm,
      fun _ => hrefused⟩

end Exchange

/-! ## 5. Rotation -/

section Rotation

variable {member : MemberRow} {family : FamilyRow} {raw clientId : String}

/-- The policy still accepts the grant of a family. -/
def AcceptsFamily (R : ClientRegistry) (family : FamilyRow) : Prop :=
  R.permitsRefresh family.clientId family.scopes family.resource = true

theorem AcceptsFamily.holds (h : AcceptsFamily R family) :
    family.scopes.Nodup ∧ R.containsClient family.clientId = true := by
  unfold AcceptsFamily ClientRegistry.permitsRefresh at h
  cases hget : R.get family.clientId with
  | none =>
      rw [hget] at h
      cases h
  | some client =>
      rw [hget] at h
      dsimp only at h
      split at h
      · cases h
      simp only [Bool.and_eq_true, beq_iff_eq] at h
      exact ⟨card_eq_length_iff.mp h.1.1, by simp [ClientRegistry.containsClient, hget]⟩

/-- The family of a token is the one that is locked for it. -/
theorem findMember_family {h : Digest} (hfound : findMember db h = some (member, family)) :
    (db.rows .refreshTokenMembers).find? (fun m => m.tokenHash = h) = some member ∧
      (db.rows .refreshFamilies).find? (fun f => f.id = member.familyId) = some family := by
  unfold findMember at hfound
  simp only [Option.bind_eq_bind, Option.bind_eq_some_iff] at hfound
  obtain ⟨m, hm, f, hf, hpair⟩ := hfound
  cases hpair
  exact ⟨hm, hf⟩

/-- **Under a static policy that accepts the family its checks make no difference.** -/
theorem agree_rotate (hR : R.dynamic = none)
    (hfound : findMember db (secretHash P raw) = some (member, family))
    (hbinding : family.cimdBinding = none) (haccepts : AcceptsFamily R family) :
    (rotateRefreshBound P t raw clientId family.resource (some R) Empty.elim).Agree
      (rotateRefreshBound P t raw clientId family.resource none Empty.elim) db ⟨db, []⟩ := by
  have hchecks : ∀ now, checkBinding (some R) now family.clientId family.cimdBinding = .ok () := by
    rw [hbinding]
    exact checkBinding_static hR haccepts.holds.2 _ (Or.inr rfl)
  have hnone : ∀ now, checkBinding none now family.clientId family.cimdBinding = .ok () := by
    rw [hbinding]
    exact checkBinding_static hR haccepts.holds.2 _ (Or.inl rfl)
  refine agree_selectOr fun lookup hlookup => ?_
  obtain ⟨seen, hseen, rfl⟩ := Option.map_eq_some_iff.mp hlookup
  obtain rfl : seen = (member, family) := Option.some.inj (hseen.symm.trans hfound)
  refine agree_lockOr fun session _ => agree_lockOr fun locked hlocked => ?_
  obtain rfl : locked = family :=
    Option.some.inj (hlocked.symm.trans (findMember_family hfound).2)
  refine agree_lockOr fun current _ => agree_ensure fun hmatches => ?_
  obtain ⟨rfl, _⟩ := hmatches
  refine agree_checked (hchecks _) (hnone _) ?_
  have hnothing : ∀ R' ∈ (none : Option ClientRegistry),
      R'.permitsRefresh locked.clientId locked.scopes locked.resource = true :=
    fun R' hR' => by cases hR'
  have hpermits : ∀ R' ∈ some R,
      R'.permitsRefresh locked.clientId locked.scopes locked.resource = true := by
    intro R' hR'
    obtain rfl := Option.some.inj hR'
    exact haccepts
  refine agree_ensure_pos hpermits (Eq.symm (agree_ensure_pos hnothing (Eq.symm ?_)))
  refine agree_checked (hchecks _) (hnone _) ?_
  refine agree_ite (fun _ => ?_) fun _ => ?_
  · exact agree_update fun _ => agree_checked (hchecks _) (hnone _) (.refl _)
  · refine agree_ensure fun _ => agree_insert fun _ => ?_
    refine agree_selectOr fun successor _ => agree_update fun _ => ?_
    exact agree_checked (hchecks _) (hnone _) (.refl _)

/-- A token presented by another client is refused. -/
theorem rotate_mismatch (hdb : Stored db)
    (hfound : findMember db (secretHash P raw) = some (member, family))
    (hother : family.clientId ≠ clientId) {resource : String} :
    (rotateRefresh P t raw clientId resource).tx.run db = (.error .invalidGrant, db) := by
  obtain ⟨hmember, hfamily⟩ := findMember_family hfound
  obtain ⟨s, hs⟩ := hdb.session family (List.mem_of_find?_eq_some hfamily)
  obtain ⟨m, hm⟩ : ∃ m, (db.rows .refreshTokenMembers).find? (fun m => m.id = member.id) = some m :=
    Option.isSome_iff_exists.mp (List.find?_isSome.mpr
      ⟨member, List.mem_of_find?_eq_some hmember, decide_eq_true rfl⟩)
  have hpost : (rotateRefresh P t raw clientId resource).tx.Post db ⟨db, []⟩
      fun r d => (r, d) = (.error .invalidGrant, db) := by
    refine (post_selectOr_some (a := ⟨member.id, member.familyId, family.sessionId⟩) ?_).mpr ?_
    · rw [hfound]
      rfl
    · refine (post_lockOr_some (by exact hs)).mpr ((post_lockOr_some hfamily).mpr ?_)
      refine (post_lockOr_some hm).mpr ((post_ensure ..).mpr ⟨fun h => ?_, fun _ => rfl⟩)
      exact absurd h.1 hother
  exact hpost

/-- **A request for a stored token** is the rotation of the token, or is refused without a
    trace. -/
theorem rotateRefreshRequest_run (hdb : Stored db) (hR : R.dynamic = none)
    (hfound : findMember db (secretHash P raw) = some (member, family))
    (hbinding : family.cimdBinding = none) (haccepts : AcceptsFamily R family)
    (resource : Option String) (scopes : Option (List String)) :
    (States resource scopes family.resource family.scopes →
      (rotateRefreshRequest P t raw clientId resource scopes R).tx.run db =
        (rotateRefresh P t raw clientId family.resource).tx.run db) ∧
    (¬States resource scopes family.resource family.scopes →
      (rotateRefreshRequest P t raw clientId resource scopes R).tx.run db =
        (.error .invalidGrant, db)) := by
  by_cases hsame : family.clientId = clientId
  · subst hsame
    have hfind : ((findMember db (secretHash P raw)).bind fun mf =>
        if mf.2.clientId = family.clientId then some (mf.2.scopes, mf.2.resource) else none) =
        some (family.scopes, family.resource) := by
      rw [hfound]
      exact if_pos rfl
    constructor
    · intro hstates
      obtain ⟨hresource, hscopes⟩ := (states_iff haccepts.holds.1).mpr hstates
      have hagree : (rotateRefreshRequest P t raw family.clientId resource scopes R).tx.Agree
          (rotateRefresh P t raw family.clientId family.resource).tx db ⟨db, []⟩ := by
        refine agree_selectOr_some hfind ?_
        refine agree_ensure_pos ⟨hresource, hscopes, haccepts⟩ ?_
        exact agree_rotate hR hfound hbinding haccepts
      exact hagree
    · intro hno
      have hpost : (rotateRefreshRequest P t raw family.clientId resource scopes R).tx.Post db
          ⟨db, []⟩ fun r d => (r, d) = (.error .invalidGrant, db) := by
        refine (post_selectOr_some hfind).mpr ((post_ensure ..).mpr ⟨fun h => ?_, fun _ => rfl⟩)
        exact absurd ((states_iff haccepts.holds.1).mp ⟨h.1, h.2.1⟩) hno
      exact hpost
  · have hrefused : (rotateRefreshRequest P t raw clientId resource scopes R).tx.run db =
        (.error .invalidGrant, db) := by
      have hpost : (rotateRefreshRequest P t raw clientId resource scopes R).tx.Post db ⟨db, []⟩
          fun r d => (r, d) = (.error .invalidGrant, db) := by
        refine (post_selectOr ..).mpr ⟨fun stored hstored => ?_, fun _ => rfl⟩
        rw [hfound] at hstored
        have hnone : (if family.clientId = clientId then some (family.scopes, family.resource)
          else none) = some stored := hstored
        rw [if_neg hsame] at hnone
        cases hnone
      exact hpost
    exact ⟨fun _ => hrefused.trans (rotate_mismatch hdb hfound hsame).symm, fun _ => hrefused⟩

end Rotation

/-- **A token request is the call it stands for.** On any rows that keep the constraints of the
    migrations, for a grant without a binding that a static policy accepts: a request that
    states nothing, or what is stored, with the scopes in any order, has the result and leaves
    the rows of the call with the stored resource, whatever that result is. A request that
    states another resource or other scopes is refused and changes nothing, even if the code or
    the token was used before. -/
theorem token_requests (P : Platform) {db : Db} (hdb : Stored db) {R : ClientRegistry}
    (hR : R.dynamic = none) (t : Tape) (raw clientId : String) (resource : Option String)
    (scopes : Option (List String)) :
    (∀ code : AuthorizationCodeRow, code ∈ db.rows .authorizationCodes →
      code.codeHash = secretHash P raw → code.cimdBinding = none → AcceptsCode P R code →
      ∀ redirectUri verifier,
        ((∀ r ∈ resource, r = code.resource) ∧ (∀ s ∈ scopes, s.Perm code.scopes) →
          (exchangeCodeRequest P t raw clientId redirectUri resource verifier scopes R).tx.run db =
            (exchangeCode P t raw clientId redirectUri code.resource verifier).tx.run db) ∧
        (¬((∀ r ∈ resource, r = code.resource) ∧ ∀ s ∈ scopes, s.Perm code.scopes) →
          (exchangeCodeRequest P t raw clientId redirectUri resource verifier scopes R).tx.run db =
            (.error .invalidGrant, db))) ∧
    ∀ member family, findMember db (secretHash P raw) = some (member, family) →
      family.cimdBinding = none → AcceptsFamily R family →
        ((∀ r ∈ resource, r = family.resource) ∧ (∀ s ∈ scopes, s.Perm family.scopes) →
          (rotateRefreshRequest P t raw clientId resource scopes R).tx.run db =
            (rotateRefresh P t raw clientId family.resource).tx.run db) ∧
        (¬((∀ r ∈ resource, r = family.resource) ∧ ∀ s ∈ scopes, s.Perm family.scopes) →
          (rotateRefreshRequest P t raw clientId resource scopes R).tx.run db =
            (.error .invalidGrant, db)) :=
  ⟨fun _ hcode hhash hbinding haccepts _ _ =>
      exchangeCodeRequest_run hdb hR hcode hbinding haccepts hhash.symm resource scopes,
    fun _ _ hfound hbinding haccepts =>
      rotateRefreshRequest_run hdb hR hfound hbinding haccepts resource scopes⟩

/-- A request that states the scopes in another order and no resource is the exchange. -/
theorem token_requests_swapped :
    (exchangeCodeRequest Sample.platform (Sample.tape 3 [.token]) "code" Sample.grant.clientId
        Sample.grant.redirectUri none Sample.verifier (some ["openid", "offline_access"])
        Sample.registry).tx.run (Sample.machine (Sample.grantSteps.take 3)).db =
      (exchangeCode Sample.platform (Sample.tape 3 [.token]) "code" Sample.grant.clientId
        Sample.grant.redirectUri Sample.grant.resource Sample.verifier).tx.run
          (Sample.machine (Sample.grantSteps.take 3)).db ∧
    ((exchangeCode Sample.platform (Sample.tape 3 [.token]) "code" Sample.grant.clientId
        Sample.grant.redirectUri Sample.grant.resource Sample.verifier).tx.run
          (Sample.machine (Sample.grantSteps.take 3)).db).1.isOk = true := by
  have hreach : Reachable Sample.platform (Sample.machine (Sample.grantSteps.take 3)) :=
    Sample.reachable (by decide)
  obtain ⟨⟨code, hcode, hhash, hbinding, hresource, hscopes, haccepts⟩, hok⟩ :
      (∃ code ∈ (Sample.machine (Sample.grantSteps.take 3)).db.rows .authorizationCodes,
        AuthorizationCodeRow.codeHash code = secretHash Sample.platform "code" ∧
        (AuthorizationCodeRow.toCodeRow code).cimdBinding.isNone = true ∧
        (AuthorizationCodeRow.toCodeRow code).resource = Sample.grant.resource ∧
        (AuthorizationCodeRow.toCodeRow code).scopes = ["offline_access", "openid"] ∧
        (Sample.registry.validatePendingParts Sample.platform 0
          (AuthorizationCodeRow.toCodeRow code).clientId
          (AuthorizationCodeRow.toCodeRow code).redirectUri "code" "S256"
          (AuthorizationCodeRow.toCodeRow code).codeChallenge
          (AuthorizationCodeRow.toCodeRow code).scopes
          (some (AuthorizationCodeRow.toCodeRow code).resource)).isOk = true) ∧
      ((exchangeCode Sample.platform (Sample.tape 3 [.token]) "code" Sample.grant.clientId
        Sample.grant.redirectUri Sample.grant.resource Sample.verifier).tx.run
          (Sample.machine (Sample.grantSteps.take 3)).db).1.isOk = true := by
    decide +kernel
  have haccepted : AcceptsCode Sample.platform Sample.registry code := by
    cases hp : Sample.registry.validatePendingParts Sample.platform 0
        (AuthorizationCodeRow.toCodeRow code).clientId
        (AuthorizationCodeRow.toCodeRow code).redirectUri "code" "S256"
        (AuthorizationCodeRow.toCodeRow code).codeChallenge
        (AuthorizationCodeRow.toCodeRow code).scopes
        (some (AuthorizationCodeRow.toCodeRow code).resource) with
    | ok p => exact ⟨0, p, hp⟩
    | error e =>
        rw [hp] at haccepts
        cases haccepts
  refine ⟨?_, hok⟩
  rw [← hresource]
  refine ((token_requests Sample.platform (stored_of_integrity (reachable_integrity hreach)) rfl
    (Sample.tape 3 [.token]) "code" Sample.grant.clientId none
    (some ["openid", "offline_access"])).1 code hcode hhash
    (Option.isNone_iff_eq_none.mp hbinding) haccepted _ _).1 ⟨?_, ?_⟩
  · intro r hr
    cases hr
  · intro s hs
    obtain rfl := Option.some.inj hs
    exact hscopes ▸ List.Perm.swap _ _ _

end Eri
