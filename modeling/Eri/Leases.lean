/-
  File:      Eri/Leases.lean
  Subject:   Metadata leases and writes: nothing is committed past the end of a lease.

  A call with a metadata registry or grant reads the monotonic clock several times. After its
  last write it reads it once more and commits only while the lease lasts; `Call.lease` names
  that reading. A transaction that came too late is marked without looking at the lease.

  * `revalidate_expired`, `checkBinding_expired`, … -- a check past the lease is
    `MetadataExpired`;
  * `…_alike` -- each call under other readings from the last one on: the same statements,
    and a refusal when the lease is over;
  * `program_alike` -- the same for every call with a lease;
  * `LastChecked`, **`leases_atomic`**.
-/
import Eri.Sql.Guards
import Eri.Bindings
import Eri.Atomicity

namespace Eri

open Sql

variable {P : Platform} {M : Machine schema Request Reply} {c : Request} {t : Tape} {db db' : Db}

/-! ## 1. Past the lease -/

section Expired

variable {R : ClientRegistry} {d : ResolvedCimdPolicy} {now now' : Instant}

theorem freshPolicy_expired (h : d.snapshot.isFresh now = false) :
    freshPolicy (some d) now = .error .metadataExpired := by
  simp [freshPolicy, h]

theorem validateBinding_expired {clientId : String} {stored : Option Json}
    (hd : R.dynamic = some d) (h : d.snapshot.isFresh now = false) :
    R.validateBinding now clientId stored = .error .metadataExpired := by
  have hfresh : R.ensureFresh now = .error .metadataExpired := by
    simp [ClientRegistry.ensureFresh, hd, h]
  unfold ClientRegistry.validateBinding
  rw [hfresh]
  rfl

theorem revalidate_expired {row : ConsentRow} (hd : R.dynamic = some d)
    (h : d.snapshot.isFresh now = false) :
    revalidate P R now now' row = .error .metadataExpired := by
  have hbinding : R.validateBinding now row.clientId row.cimdBinding = .error .metadataExpired :=
    validateBinding_expired hd h
  unfold revalidate
  rw [hbinding]
  rfl

theorem policy_expired {row : ConsentRow} (hd : R.dynamic = some d)
    (h : d.snapshot.isFresh now = false) :
    validateOptionalRegistry P (some R) now now' row = .error .metadataExpired := by
  have hrevalidate : revalidate P R now now' row = .error .metadataExpired :=
    revalidate_expired hd h
  unfold validateOptionalRegistry
  dsimp only
  rw [hrevalidate]
  rfl

theorem checkBinding_expired {clientId : String} {stored : Option Json}
    (hd : R.dynamic = some d) (h : d.snapshot.isFresh now = false) :
    checkBinding (some R) now clientId stored = .error .metadataExpired := by
  have hbinding : R.validateBinding now clientId stored = .error .metadataExpired :=
    validateBinding_expired hd h
  unfold checkBinding
  dsimp only
  rw [hbinding]
  rfl

end Expired

/-! ## 2. One call under other readings -/

/-- The same tape with other readings of the monotonic clock. -/
abbrev Tape.reading (t : Tape) (instant : Nat → Instant) : Tape := { t with instant }

section Alike

variable {R : ClientRegistry} {d : ResolvedCimdPolicy} {i : Nat → Instant}

theorem issueAuthorizationCode_alike {session : ProviderSession}
    {grant : ValidatedAuthorizationGrant} {lifetime : Duration} (hd : grant.dynamic = some d)
    (hi : ∀ j < 1, i j = t.instant j) :
    Alike (Refuses (d.snapshot.isFresh (i 1) = false) (fun _ => False)
      (.error .metadataExpired)) (issueAuthorizationCode P t session grant lifetime).tx
      (issueAuthorizationCode P (t.reading i) session grant lifetime).tx := by
  refine alike_checked fun seconds _ => alike_lockOr fun _ => alike_selectOr fun active =>
    alike_ensure fun _ => alike_selectOr fun upstream => ?_
  dsimp only
  rw [hi 0 (by decide)]
  refine alike_checked fun _ _ => alike_insert fun _ => alike_guard (fun _ => trivial)
    (fun _ => trivial) fun hlate => ⟨.metadataExpired, ?_, rfl⟩
  unfold ValidatedAuthorizationGrant.ensureFresh
  rw [hd]
  exact freshPolicy_expired hlate

theorem beginGoogle_alike {pending : PendingAuthorizationGrant} {state nonce : Option String}
    {allow : Bool} (hd : pending.dynamic = some d) (hi : ∀ j < 1, i j = t.instant j) :
    Alike (Refuses (d.snapshot.isFresh (i 1) = false) (fun _ => False)
      (.error .metadataExpired)) (beginGoogle P t pending state nonce allow).tx
      (beginGoogle P (t.reading i) pending state nonce allow).tx := by
  unfold beginGoogle
  dsimp only
  rw [hi 0 (by decide)]
  refine alike_checked fun _ _ => alike_insert fun _ => alike_guard (fun _ => trivial)
    (fun _ => trivial) fun hlate => ⟨.metadataExpired, ?_, rfl⟩
  unfold PendingAuthorizationGrant.ensureFresh
  rw [hd]
  exact freshPolicy_expired hlate

theorem beginAuthenticated_alike {session : ProviderSession}
    {pending : PendingAuthorizationGrant} {state nonce : Option String} {allow : Bool}
    (hd : pending.dynamic = some d) (hi : ∀ j < 1, i j = t.instant j) :
    Alike (Refuses (d.snapshot.isFresh (i 1) = false) (fun _ => False)
      (.error .metadataExpired)) (beginAuthenticated P t session pending state nonce allow).tx
      (beginAuthenticated P (t.reading i) session pending state nonce allow).tx := by
  refine alike_lockOr fun s => alike_ensure fun _ => ?_
  dsimp only
  rw [hi 0 (by decide)]
  refine alike_checked fun _ _ => alike_insert fun _ => alike_guard (fun _ => trivial)
    (fun _ => trivial) fun hlate => ⟨.metadataExpired, ?_, rfl⟩
  unfold PendingAuthorizationGrant.ensureFresh
  rw [hd]
  exact freshPolicy_expired hlate

theorem cancelGoogle_alike {id : Uuid} {state binding : String} (hd : R.dynamic = some d)
    (hi : ∀ j < 2, i j = t.instant j) :
    Alike (Refuses (d.snapshot.isFresh (i 2) = false) (fun _ => False)
      (.error .metadataExpired)) (cancelGoogle P t id state binding (some R)).tx
      (cancelGoogle P (t.reading i) id state binding (some R)).tx := by
  refine alike_lockOr fun row => ?_
  dsimp only
  rw [hi 0 (by decide), hi 1 (by decide)]
  exact alike_checked fun _ _ => alike_update fun _ => alike_guard (fun _ => trivial)
    (fun _ => trivial) fun hlate => ⟨_, policy_expired hd hlate, rfl⟩

theorem denyCallback_alike {claim : String} (hd : R.dynamic = some d)
    (hi : ∀ j < 2, i j = t.instant j) :
    Alike (Refuses (d.snapshot.isFresh (i 2) = false) (fun _ => False)
      (.error .metadataExpired)) (denyCallback P t claim R).tx
      (denyCallback P (t.reading i) claim R).tx := by
  refine alike_lockOr fun row => alike_ensure fun _ => ?_
  dsimp only
  rw [hi 0 (by decide), hi 1 (by decide)]
  exact alike_checked fun _ _ => alike_update fun _ => alike_guard (fun _ => trivial)
    (fun _ => trivial) fun hlate => ⟨_, revalidate_expired hd hlate, rfl⟩

theorem deny_alike {session : ProviderSession} {handle : ConsentHandle}
    (hd : R.dynamic = some d) (hi : ∀ j < 2, i j = t.instant j) :
    Alike (Refuses (d.snapshot.isFresh (i 2) = false) (fun _ => False)
      (.error .metadataExpired)) (deny P t session handle (some R)).tx
      (deny P (t.reading i) session handle (some R)).tx := by
  refine alike_lockOr fun s => alike_lockOr fun row => alike_ensure fun _ => ?_
  dsimp only
  rw [hi 0 (by decide), hi 1 (by decide)]
  exact alike_checked fun _ _ => alike_update fun _ => alike_guard (fun _ => trivial)
    (fun _ => trivial) fun hlate => ⟨_, policy_expired hd hlate, rfl⟩

theorem approve_alike {session : ProviderSession} {handle : ConsentHandle}
    (hd : R.dynamic = some d) (hi : ∀ j < 3, i j = t.instant j) :
    Alike (Refuses (d.snapshot.isFresh (i 3) = false) (fun _ => False)
      (.error .metadataExpired)) (approve P t session handle R).tx
      (approve P (t.reading i) session handle R).tx := by
  refine alike_lockOr fun s => alike_lockOr fun row => alike_ensure fun _ => ?_
  dsimp only
  rw [hi 0 (by decide), hi 1 (by decide), hi 2 (by decide)]
  exact alike_checked fun pending _ => alike_checked fun grant _ => alike_insert fun _ =>
    alike_update fun _ => alike_guard (fun _ => trivial) (fun _ => trivial)
      fun hlate => ⟨_, revalidate_expired hd hlate, rfl⟩

theorem approvePreAuthorized_alike {session : ProviderSession} {handle : ConsentHandle}
    (hd : R.dynamic = some d) (hi : ∀ j < 3, i j = t.instant j) :
    Alike (Refuses (d.snapshot.isFresh (i 3) = false) (fun _ => False)
      (.error .metadataExpired)) (approvePreAuthorized P t session handle R).tx
      (approvePreAuthorized P (t.reading i) session handle R).tx := by
  refine alike_lockOr fun s => alike_lockOr fun row => alike_ensure fun _ => ?_
  dsimp only
  rw [hi 0 (by decide), hi 1 (by decide), hi 2 (by decide)]
  exact alike_checked fun pending _ => alike_ensure fun _ => alike_checked fun grant _ =>
    alike_insert fun _ => alike_update fun _ => alike_guard
      (fun _ => ended_ensure (ended_ensure trivial))
      (fun _ => ended_ensure (ended_ensure trivial))
      fun hlate => ⟨_, revalidate_expired hd hlate, rfl⟩

theorem exchangeCodeRequest_alike {raw clientId redirectUri : String}
    {resource : Option String} {verifier : String} {scopes : Option (List String)}
    (hd : R.dynamic = some d) (hi : ∀ j < 4, i j = t.instant j) :
    Alike (Refuses (d.snapshot.isFresh (i 4) = false) (fun _ => False)
      (.error .metadataExpired))
      (exchangeCodeRequest P t raw clientId redirectUri resource verifier scopes R).tx
      (exchangeCodeRequest P (t.reading i) raw clientId redirectUri resource verifier scopes
        R).tx := by
  refine alike_selectOr fun stored => alike_ensure fun _ => ?_
  dsimp only
  rw [hi 0 (by decide)]
  refine alike_checked fun _ _ => alike_selectOr fun code => alike_ensure fun _ =>
    alike_lockOr fun session => alike_lockOr fun locked => alike_lockOr fun current =>
    alike_ensure fun _ => ?_
  dsimp only
  rw [hi 1 (by decide), hi (1 + 1) (by decide), hi (1 + 2) (by decide)]
  refine alike_checked fun _ _ => alike_checked fun _ _ => alike_checked fun _ _ => ?_
  refine alike_ite (fun _ => alike_update fun _ => ?_) fun _ => alike_ensure fun _ =>
    alike_update fun _ => ?_
  · exact alike_guard (fun _ => trivial) (fun _ => trivial)
      fun hlate => ⟨_, checkBinding_expired hd hlate, rfl⟩
  · refine alike_ite (fun _ => alike_insert fun _ => alike_insert fun _ => ?_) fun _ => ?_
    · exact alike_guard (fun _ => trivial) (fun _ => trivial)
        fun hlate => ⟨_, checkBinding_expired hd hlate, rfl⟩
    · exact alike_guard (fun _ => trivial) (fun _ => trivial)
        fun hlate => ⟨_, checkBinding_expired hd hlate, rfl⟩

theorem rotateRefreshRequest_alike {raw clientId : String} {resource : Option String}
    {scopes : Option (List String)} (hd : R.dynamic = some d)
    (hi : ∀ j < 2, i j = t.instant j) :
    Alike (Refuses (d.snapshot.isFresh (i 2) = false) (fun _ => False)
      (.error .metadataExpired)) (rotateRefreshRequest P t raw clientId resource scopes R).tx
      (rotateRefreshRequest P (t.reading i) raw clientId resource scopes R).tx := by
  refine alike_selectOr fun stored => alike_ensure fun _ => alike_selectOr fun lookup =>
    alike_lockOr fun session => alike_lockOr fun family => alike_lockOr fun member =>
    alike_ensure fun _ => ?_
  dsimp only
  rw [hi 0 (by decide), hi 1 (by decide)]
  refine alike_checked fun _ _ => alike_ensure fun _ => alike_checked fun _ _ => ?_
  refine alike_ite (fun _ => alike_update fun _ => ?_) fun _ => alike_ensure fun _ =>
    alike_insert fun _ => alike_selectOr fun successor => alike_update fun _ => ?_
  · exact alike_guard (fun _ => trivial) (fun _ => trivial)
      fun hlate => ⟨_, checkBinding_expired hd hlate, rfl⟩
  · exact alike_guard (fun _ => trivial) (fun _ => trivial)
      fun hlate => ⟨_, checkBinding_expired hd hlate, rfl⟩

theorem alike_checkedStaged {refuse : Prop} {ε α β : Type} {free : Except ε β → Prop}
    {bad : Except ε β} {x : Except ε α} {k k' : α → Tx schema (Except ε β)}
    (h : ∀ a, x = .ok a → Alike (Refuses refuse free bad) (k a) (k' a)) :
    Alike (Refuses refuse free bad) (checkedStaged x k) (checkedStaged x k') := by
  unfold checkedStaged
  split
  · exact h _ rfl
  · exact alike_rollbackToSavepoint (alike_abort k k' _)

theorem alike_findOrCreateUser {refuse : Prop} {ρ : Type} {free : ρ → Prop} {bad : ρ}
    {issuer subject : String} {k k' : Uuid → Tx schema ρ}
    (h : ∀ user, Alike (Refuses refuse free bad) (k user) (k' user)) :
    Alike (Refuses refuse free bad) (findOrCreateUser t issuer subject k)
      (findOrCreateUser t issuer subject k') := by
  refine alike_select fun existing => ?_
  cases existing with
  | some user => exact h user
  | none => exact alike_insert fun _ => alike_insert fun _ => h _

/-- The one commit that needs no lease marks a transaction that came too late. -/
theorem completeCallback_alike {claim : String} {identity : VerifiedGoogleIdentity}
    {lifetime : Duration} (hd : R.dynamic = some d) (hi : ∀ j < 6, i j = t.instant j) :
    Alike (Refuses (d.snapshot.isFresh (i 6) = false) (fun r => r = .error .invalid)
      (.error .metadataExpired)) (completeCallback P t claim identity lifetime (some R)).tx
      (completeCallback P (t.reading i) claim identity lifetime (some R)).tx := by
  refine alike_checked fun seconds _ => alike_lockOr fun row => alike_lockOr fun policyRow => ?_
  dsimp only
  rw [hi 0 (by decide), hi 1 (by decide), hi 2 (by decide), hi 3 (by decide),
    hi 4 (by decide), hi 5 (by decide)]
  refine alike_checked fun _ _ => alike_savepoint (alike_advisoryLock (alike_checkedStaged
    fun _ _ => alike_findOrCreateUser fun user => alike_upsert (alike_insert fun session => ?_)))
  refine alike_ite (fun _ => alike_rollbackToSavepoint (alike_update fun _ =>
    alike_commit rfl)) fun _ => alike_checkedStaged fun _ _ => alike_releaseSavepoint
      (alike_update fun changed => alike_ensure fun _ => ?_)
  exact alike_guard (fun _ => trivial) (fun _ => trivial)
    fun hlate => ⟨_, policy_expired hd hlate, rfl⟩

end Alike

/-! ## 3. Every call with a lease -/

/-- The lease a call runs under, and the last reading it is checked at. -/
def Call.lease : Call → Option (LeasedClientMetadata × Nat)
  | .issueAuthorizationCode _ grant _ => grant.dynamic.map fun d => (d.snapshot, 1)
  | .beginGoogle pending _ _ _ => pending.dynamic.map fun d => (d.snapshot, 1)
  | .beginAuthenticated _ pending _ _ _ => pending.dynamic.map fun d => (d.snapshot, 1)
  | .exchangeCodeRequest _ _ _ _ _ _ R => R.dynamic.map fun d => (d.snapshot, 4)
  | .rotateRefreshRequest _ _ _ _ R => R.dynamic.map fun d => (d.snapshot, 2)
  | .cancelGoogle _ _ _ (some R) => R.dynamic.map fun d => (d.snapshot, 2)
  | .denyCallback _ R => R.dynamic.map fun d => (d.snapshot, 2)
  | .deny _ _ (some R) => R.dynamic.map fun d => (d.snapshot, 2)
  | .completeCallback _ _ _ (some R) => R.dynamic.map fun d => (d.snapshot, 6)
  | .approve _ _ R => R.dynamic.map fun d => (d.snapshot, 3)
  | .approvePreAuthorized _ _ R => R.dynamic.map fun d => (d.snapshot, 3)
  | _ => none

/-- `MetadataExpired`, from either store. -/
def Reply.expired : Reply → Bool
  | .session (.error .metadataExpired) | .code (.error .metadataExpired)
  | .exchanged (.error .metadataExpired) | .revoked (.error .metadataExpired)
  | .challenge (.error .metadataExpired) | .finished (.error .metadataExpired)
  | .hinted (.error .metadataExpired) => true
  | r => r.browserError = some .metadataExpired

/-- The commit of a transaction that came too late. -/
def Reply.Marks (r : Reply) : Prop := r = .completed (.error .invalid)

theorem lease_of_map {o : Option ResolvedCimdPolicy} {n k : Nat} {lease : LeasedClientMetadata}
    (h : (o.map fun d => (d.snapshot, n)) = some (lease, k)) :
    ∃ d, o = some d ∧ d.snapshot = lease ∧ n = k := by
  obtain ⟨d, hd, e⟩ := Option.map_eq_some_iff.mp h
  cases e
  exact ⟨d, hd, rfl, rfl⟩

/-- **Every call with a lease, under other readings from the last one on.** -/
theorem program_alike {call : Call} {lease : LeasedClientMetadata} {k : Nat}
    (hlease : call.lease = some (lease, k)) {i : Nat → Instant}
    (hi : ∀ j < k, i j = t.instant j) :
    ∃ bad : Reply, bad.expired = true ∧
      Alike (Refuses (lease.isFresh (i k) = false) Reply.Marks bad) (program P ⟨call, t⟩)
        (program P ⟨call, t.reading i⟩) := by
  cases call with
  | issueAuthorizationCode session grant lifetime =>
      obtain ⟨d, hd, rfl, rfl⟩ := lease_of_map hlease
      exact ⟨_, rfl, (issueAuthorizationCode_alike hd hi).map Reply.code fun _ h => h.elim⟩
  | beginGoogle pending state nonce allow =>
      obtain ⟨d, hd, rfl, rfl⟩ := lease_of_map hlease
      exact ⟨_, rfl, (beginGoogle_alike hd hi).map Reply.begun fun _ h => h.elim⟩
  | beginAuthenticated session pending state nonce allow =>
      obtain ⟨d, hd, rfl, rfl⟩ := lease_of_map hlease
      exact ⟨_, rfl, (beginAuthenticated_alike hd hi).map Reply.handle fun _ h => h.elim⟩
  | exchangeCodeRequest raw clientId redirectUri resource verifier scopes R =>
      obtain ⟨d, hd, rfl, rfl⟩ := lease_of_map hlease
      exact ⟨_, rfl, (exchangeCodeRequest_alike hd hi).map Reply.exchanged fun _ h => h.elim⟩
  | rotateRefreshRequest raw clientId resource scopes R =>
      obtain ⟨d, hd, rfl, rfl⟩ := lease_of_map hlease
      exact ⟨_, rfl, (rotateRefreshRequest_alike hd hi).map Reply.exchanged fun _ h => h.elim⟩
  | cancelGoogle id state binding registry =>
      cases registry with
      | none => cases hlease
      | some R =>
          obtain ⟨d, hd, rfl, rfl⟩ := lease_of_map hlease
          exact ⟨_, rfl, (cancelGoogle_alike hd hi).map Reply.denied fun _ h => h.elim⟩
  | denyCallback claim R =>
      obtain ⟨d, hd, rfl, rfl⟩ := lease_of_map hlease
      exact ⟨_, rfl, (denyCallback_alike hd hi).map Reply.denied fun _ h => h.elim⟩
  | completeCallback claim identity lifetime registry =>
      cases registry with
      | none => cases hlease
      | some R =>
          obtain ⟨d, hd, rfl, rfl⟩ := lease_of_map hlease
          exact ⟨_, rfl, (completeCallback_alike hd hi).map Reply.completed
            fun r h => show Reply.Marks _ from congrArg Reply.completed h⟩
  | approve session handle R =>
      obtain ⟨d, hd, rfl, rfl⟩ := lease_of_map hlease
      exact ⟨_, rfl, (approve_alike hd hi).map Reply.approved fun _ h => h.elim⟩
  | approvePreAuthorized session handle R =>
      obtain ⟨d, hd, rfl, rfl⟩ := lease_of_map hlease
      exact ⟨_, rfl, (approvePreAuthorized_alike hd hi).map Reply.preApproved fun _ h => h.elim⟩
  | deny session handle registry =>
      cases registry with
      | none => cases hlease
      | some R =>
          obtain ⟨d, hd, rfl, rfl⟩ := lease_of_map hlease
          exact ⟨_, rfl, (deny_alike hd hi).map Reply.denied fun _ h => h.elim⟩
  | _ => cases hlease

/-- **The `k`th reading of a call is its last look at the lease**: the lease lasted then, the
    call's writes do not depend on that reading or a later one, and had the lease been over
    there the call would have been refused and have left nothing. -/
structure LastChecked (P : Platform) (c : Request) (db : Db) (lease : LeasedClientMetadata)
    (k : Nat) : Prop where
  fresh : lease.isFresh (c.tape.instant k) = true
  last : ∀ i : Nat → Instant, (∀ j < k, i j = c.tape.instant j) →
    (program P ⟨c.call, c.tape.reading i⟩).writes ⟨db, []⟩ = (program P c).writes ⟨db, []⟩
  decides : ∀ i : Nat → Instant, (∀ j < k, i j = c.tape.instant j) → lease.isFresh (i k) = false →
    ∃ r : Reply, r.expired = true ∧ (program P ⟨c.call, c.tape.reading i⟩).run db = (r, db)

/-- **A call that commits under a lease has checked it after its last write**, unless it marks
    a transaction that came too late. -/
theorem commits_checked {lease : LeasedClientMetadata} {k : Nat} {r : Reply}
    (hlease : c.call.lease = some (lease, k)) (h : (program P c).run db = (r, db'))
    (hcommits : (program P c).Commits ⟨db, []⟩) (hmarks : ¬r.Marks) :
    LastChecked P c db lease k := by
  have hvalue : ((program P c).exec db ⟨db, []⟩).1 = r := congrArg Prod.fst h
  refine ⟨?_, fun i hi => ?_, fun i hi hlate => ?_⟩
  · -- the call itself was not refused
    cases hfresh : lease.isFresh (c.tape.instant k) with
    | true => rfl
    | false =>
        obtain ⟨bad, hbad, halike⟩ := program_alike (P := P) (t := c.tape)
          (i := c.tape.instant) hlease fun _ _ => rfl
        rcases halike.run hfresh db ⟨db, []⟩ with ⟨hrefused, _⟩ | ⟨_, hfree⟩
        · exact absurd hcommits hrefused
        · exact absurd (hvalue ▸ hfree hcommits) hmarks
  · obtain ⟨bad, _, halike⟩ := program_alike (P := P) hlease hi
    exact halike.writes _
  · obtain ⟨bad, hbad, halike⟩ := program_alike (P := P) hlease hi
    rcases halike.run hlate db ⟨db, []⟩ with ⟨_, hrefused⟩ | ⟨_, hfree⟩
    · exact ⟨bad, hbad, hrefused⟩
    · exact absurd (hvalue ▸ hfree hcommits) hmarks

/-! ## 4. Calls past a lease -/

theorem browserError_of_expired {r : Reply} (h : r.expired = true) :
    r.granted = none ∧ r.isOk = false := by
  unfold Reply.expired at h
  split at h
  all_goals first
    | exact ⟨rfl, rfl⟩
    | skip
  have herror : r.browserError = some .metadataExpired := of_decide_eq_true h
  unfold Reply.browserError at herror
  split at herror
  all_goals first
    | exact ⟨rfl, rfl⟩
    | cases herror

/-- **A call that answers `MetadataExpired` changes nothing.** -/
theorem expired_unchanged {r : Reply} (h : (program P c).run db = (r, db'))
    (hr : r.expired = true) : db' = db := by
  have hfails := (browserError_of_expired hr).2
  obtain ⟨call, t⟩ := c
  cases call with
  | issueAuthorizationCode session grant lifetime => exact issue_error h rfl hfails
  | exchangeCode raw | exchangeCodeRequest raw =>
      rcases exchange_error h rfl hfails with hsame | ⟨code, hused, _⟩
      · exact hsame
      · have hreply := congrArg Prod.fst ((presentsUsedCode_run hused).symm.trans h)
        subst hreply
        cases hr
  | rotateRefresh raw | rotateRefreshRequest raw =>
      rcases rotate_error h rfl hfails with hsame | ⟨family, hused, _⟩
      · exact hsame
      · have hreply := congrArg Prod.fst ((presentsUsedToken_run hused).symm.trans h)
        subst hreply
        cases hr
  | findProviderSession | transactionClientId | callbackClientId | sessionUpstreamAuthTime
  | consentView | userProfile => exact read_only h rfl
  | createProviderSession user lifetime =>
      obtain ⟨x, hx, rfl⟩ := run_of_map h
      rcases createProviderSession_run hx with ⟨_, _, hsame⟩ | ⟨_, _, rfl, _⟩
      · exact hsame
      · cases hr
  | revokeRefresh raw clientId =>
      obtain ⟨x, hx, rfl⟩ := run_of_map h
      rcases revokeRefresh_run hx with
        ⟨_, hsame, _⟩ | ⟨_, _, _, ⟨_, hsame⟩ | ⟨rfl, _⟩⟩
      · exact hsame
      · exact hsame
      · cases hr
  | logout session =>
      obtain ⟨x, hx, rfl⟩ := run_of_map h
      rcases logout_run hx with ⟨_, hsame⟩ | ⟨_, _, rfl, _⟩
      · exact hsame
      · cases hr
  | beginLogout session clientId redirect state registry =>
      obtain ⟨x, hx, rfl⟩ := run_of_map h
      rcases beginLogout_run hx with ⟨_, hsame⟩ | ⟨_, _, _, _, rfl, _⟩
      · exact hsame
      · cases hr
  | beginLocal session localUri =>
      obtain ⟨x, hx, rfl⟩ := run_of_map h
      rcases insertLogout_run hx with ⟨_, _, hsame⟩ | ⟨_, _, _, rfl, _⟩
      · exact hsame
      · cases hr
  | finish session challenge registry =>
      obtain ⟨x, hx, rfl⟩ := run_of_map h
      obtain ⟨y, hy, rfl⟩ := run_of_map hx
      rcases finishInner_run hy with ⟨_, hsame⟩ | ⟨_, _, _, ⟨_, hsame⟩ | ⟨_, rfl, _⟩⟩
      · exact hsame
      · exact hsame
      · cases hr
  | finishHint session challenge registry hint =>
      obtain ⟨x, hx, rfl⟩ := run_of_map h
      rcases finishInner_run hx with ⟨_, hsame⟩ | ⟨_, _, _, ⟨_, hsame⟩ | ⟨_, rfl, _⟩⟩
      · exact hsame
      · exact hsame
      · cases hr
  | beginGoogle pending downstreamState oidcNonce allow =>
      obtain ⟨x, hx, rfl⟩ := run_of_map h
      rcases beginGoogle_run hx with ⟨_, hsame⟩ | ⟨rfl, _⟩
      · exact hsame
      · cases hr
  | startGoogle id state binding =>
      obtain ⟨x, hx, rfl⟩ := run_of_map h
      rcases startGoogle_run hx with ⟨_, hsame⟩ | ⟨row, _, _, rfl, _⟩
      · exact hsame
      · -- the only error of a started transaction is a missing secret
        cases hsecrets : row.startSecrets with
        | ok x =>
            rw [hsecrets] at hr
            cases hr
        | error e =>
            rw [hsecrets, startSecrets_error hsecrets] at hr
            cases hr
  | cancelGoogle id state binding registry =>
      obtain ⟨x, hx, rfl⟩ := run_of_map h
      rcases cancelGoogle_run hx with ⟨_, hsame⟩ | ⟨_, _, _, rfl, _⟩
      · exact hsame
      · cases hr
  | beginAuthenticated session pending downstreamState oidcNonce allow =>
      obtain ⟨x, hx, rfl⟩ := run_of_map h
      rcases beginAuthenticated_run hx with ⟨_, hsame⟩ | ⟨_, _, _, rfl, _⟩
      · exact hsame
      · cases hr
  | claimCallback state binding =>
      obtain ⟨x, hx, rfl⟩ := run_of_map h
      rcases claimCallback_run hx with
        ⟨_, hsame⟩ | ⟨_, _, ⟨_, hsame, _⟩ | ⟨_, rfl, _⟩ | ⟨_, _, _, _, rfl, _⟩⟩
      · exact hsame
      · exact hsame
      · cases hr
      · cases hr
  | failCallback claim =>
      obtain ⟨x, hx, rfl⟩ := run_of_map h
      obtain ⟨_, hreply⟩ := failCallback_run hx
      rw [hreply] at hr
      split at hr <;> cases hr
  | denyCallback claim registry =>
      obtain ⟨x, hx, rfl⟩ := run_of_map h
      rcases denyCallback_run hx with ⟨_, hsame⟩ | ⟨_, _, _, rfl, _⟩
      · exact hsame
      · cases hr
  | completeCallback claim identity lifetime registry =>
      obtain ⟨x, hx, rfl⟩ := run_of_map h
      rcases completeCallback_run hx with
        ⟨_, hsame⟩ | ⟨_, _, _, ⟨_, rfl, _⟩ | ⟨_, _, _, rfl, _⟩⟩
      · exact hsame
      · cases hr
      · cases hr
  | approve session handle registry =>
      obtain ⟨x, hx, rfl⟩ := run_of_map h
      rcases approve_run hx with ⟨_, hsame⟩ | ⟨_, _, _, _, _, _, _, _, rfl, _⟩
      · exact hsame
      · cases hr
  | approvePreAuthorized session handle registry =>
      obtain ⟨x, hx, rfl⟩ := run_of_map h
      rcases approvePreAuthorized_run hx with
        ⟨_, hsame⟩ | ⟨_, _, _, _, _, ⟨rfl, _⟩ | ⟨_, _, _, _, _, rfl, _⟩⟩
      · exact hsame
      · cases hr
      · cases hr
  | deny session handle registry =>
      obtain ⟨x, hx, rfl⟩ := run_of_map h
      rcases deny_run hx with ⟨_, hsame⟩ | ⟨_, _, _, _, rfl, _⟩
      · exact hsame
      · cases hr
  | findOrCreateExternalIdentity | findOrCreateVerifiedGoogleIdentity =>
      obtain ⟨x, _, rfl⟩ := run_of_map h
      cases hr

/-- **Leases and writes.** In every run, whatever the deadlines and the clock readings are: a
    call with a lease that commits has found the lease lasting after its last write, unless it
    marks its transaction, which came too late; without a commit nothing changes. A call that
    answers `MetadataExpired` leaves nothing, so the other calls, a retry of it among them,
    answer the same and leave the same rows without it. -/
theorem leases_atomic (P : Platform) (h : Reachable P M) :
    (∀ e ∈ M.log, ∀ lease k, e.call.call.lease = some (lease, k) →
      ((program P e.call).Commits ⟨e.before, []⟩ → LastChecked P e.call e.before lease k ∨
        (e.reply.Marks ∧ (e.after = e.before ∨ TooLate P e.call e.before e.after))) ∧
      (¬(program P e.call).Commits ⟨e.before, []⟩ → e.after = e.before)) ∧
    (∀ e ∈ M.log, e.reply.expired = true → e.after = e.before) ∧
    ∀ keep : Entry → Bool, (∀ e ∈ M.log, keep e = false → e.reply.expired = true) →
      Sql.runAll (program P) ((M.log.filter keep).map (·.call)) Sql.Db.empty =
        ((M.log.filter keep).map (·.reply), M.db) := by
  have hsame : ∀ e ∈ M.log, e.reply.expired = true → e.after = e.before := fun e he hr =>
    expired_unchanged (reachable_entry (lawful P) h he).2 hr
  refine ⟨fun e he lease k hlease => ?_, hsame, fun keep hkeep =>
    (serial_reachable (lawful P) h).atomic.runAll_filter fun e he hno =>
      hsame e he (hkeep e he hno)⟩
  obtain ⟨hgood, hrun⟩ := reachable_entry (lawful P) h he
  refine ⟨fun hcommits => ?_, fun hno => ?_⟩
  · by_cases hmarks : e.reply.Marks
    · have hkeys : KeysUnique e.before := keysUnique_of_integrity hgood.1
      have herror : e.reply.browserError = some .invalid := congrArg Reply.browserError hmarks
      exact Or.inr ⟨hmarks, browser_error hkeys hrun herror (by decide)⟩
    · exact Or.inl (commits_checked hlease hrun hcommits hmarks)
  · have hunchanged := exec_of_not_commits (program P e.call) e.before ⟨e.before, []⟩ hno
    rw [← hunchanged]
    exact (congrArg Prod.snd hrun).symm

namespace Sample

/-- The grant under a lease with a deadline. -/
def leasedGrant (expiresAt : Instant) : ValidatedAuthorizationGrant :=
  { grant with dynamic := some ⟨⟨⟨"app", "App", [], true⟩, expiresAt⟩, ⟨1, "app", [], true⟩⟩ }

/-- A code is asked for under a lease that is over, and again under a fresh one. -/
def leaseSteps : List Step :=
  [(.findOrCreateVerifiedGoogleIdentity identity, [.login]),
   (.createProviderSession ⟨1, none⟩ ⟨3600, 0⟩, [.session]),
   (.issueAuthorizationCode ⟨"session", 2, 3601 * second⟩ (leasedGrant 2) ⟨60, 0⟩, [.late]),
   (.issueAuthorizationCode ⟨"session", 2, 3601 * second⟩ (leasedGrant 9) ⟨60, 0⟩, [.code])]

end Sample

/-- The retry checked its lease last, and is as if it had been the first attempt. -/
theorem leases_atomic_retried :
    (∃ e ∈ (Sample.machine Sample.leaseSteps).log, ∃ lease k,
      e.call.call.lease = some (lease, k) ∧
      LastChecked Sample.platform e.call e.before lease k) ∧
    ∃ e ∈ (Sample.machine Sample.leaseSteps).log, e.reply.expired = true ∧
      e.after = e.before := by
  have hreach : Reachable Sample.platform (Sample.machine Sample.leaseSteps) :=
    Sample.reachable (by decide)
  obtain ⟨hleases, hexpired, _⟩ := leases_atomic Sample.platform hreach
  refine ⟨?_, ?_⟩
  · obtain ⟨e, he, hsome, hok, hcount⟩ : ∃ e ∈ (Sample.machine Sample.leaseSteps).log,
        e.call.call.lease.isSome = true ∧ e.reply.isOk = true ∧
        (e.after.rows .authorizationCodes).length ≠
          (e.before.rows .authorizationCodes).length := by
      decide +kernel
    obtain ⟨⟨lease, k⟩, hlease⟩ := Option.isSome_iff_exists.mp hsome
    obtain ⟨hcommit, hno⟩ := hleases e he lease k hlease
    have hcommits : (program Sample.platform e.call).Commits ⟨e.before, []⟩ := by
      by_contra h
      rw [hno h] at hcount
      exact hcount rfl
    have hchecked := (hcommit hcommits).resolve_right fun hmarks => by
      rw [hmarks.1] at hok
      cases hok
    exact ⟨e, he, lease, k, hlease, hchecked⟩
  · obtain ⟨e, he, hr⟩ : ∃ e ∈ (Sample.machine Sample.leaseSteps).log,
        e.reply.expired = true := by
      decide +kernel
    exact ⟨e, he, hr, hexpired e he hr⟩

end Eri
