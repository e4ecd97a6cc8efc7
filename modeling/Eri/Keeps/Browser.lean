/-
  File:      Eri/Keeps/Browser.lean
  Subject:   Every call of the browser store and of the identity lookup keeps to the contract.

  A transaction row is locked, or found, by a name of its own (its id, its state hash, its
  claim hash), and then moves along one edge of `Stage.Next`; `updateOk_browser` says what such
  a move has to leave in the row. The login of `completeCallback` is the only program with a
  savepoint: the lock of the identity is given back when the rollback runs, and the call can
  reach the same point again from any rows (`solo_findOrCreateUser`).

  **`calls_serializable`**: with that, any interleaving of statements is some order of calls.
-/
import Eri.Keeps.Credentials

namespace Eri

open Sql

variable {P : Platform} {c : Request} {ρ α : Type} {m : Option (Mark schema ρ)}
  {K : Db → Prop} {l : Local schema}

/-! ## 1. One move of a transaction -/

theorem BrowserRow.mem_names {n : Name} {r : BrowserRow} :
    n ∈ Row.names (t := .browserAuthorizations) r ↔ n = .id r.id ∨
      ∃ x, (r.upstreamStateHash = some x ∨ r.claimHash = some x) ∧ .hash x = n := by
  simp only [Row.names, List.mem_cons, List.mem_map, List.mem_append, Option.mem_toList]

theorem updateOk_browser {d : Db} {r r' : BrowserRow} (h : r.Ok d) (hl : r.Later r')
    (hs : r'.Secrets)
    (hsess : ∀ u, r'.sessionId = some u → r.sessionId = some u ∨
      ∃ s ∈ d.rows .providerSessions, SessionRow.id s = u)
    (hclaim : ∀ x, r'.claimHash = some x → r.claimHash = some x ∨
      ((calls P).Owns c (.hash x) ∧ ∀ y ∈ d.rows .browserAuthorizations,
        .hash x ∉ Row.names (t := .browserAuthorizations) y)) :
    UpdateOk P c .browserAuthorizations d r r' where
  later := hl
  ok := by
    refine ⟨?_, ?_, ?_, fun u hu => (hsess u hu).elim (h.session u) id, hs⟩
    · rw [hl.consent, hl.created]
      exact h.lifetime
    · rw [hl.consent]
      exact h.sorted
    · rw [hl.consent]
      exact h.binding
  names n hn := by
    rw [BrowserRow.mem_names, hl.id, hl.state] at hn
    rcases hn with rfl | ⟨x, hx | hx, rfl⟩
    · exact Or.inl (BrowserRow.mem_names.mpr (Or.inl rfl))
    · exact Or.inl (BrowserRow.mem_names.mpr (Or.inr ⟨x, Or.inl hx, rfl⟩))
    · rcases hclaim x hx with hx | hx
      · exact Or.inl (BrowserRow.mem_names.mpr (Or.inr ⟨x, Or.inr hx, rfl⟩))
      · exact Or.inr hx

section Moves

variable {d : Db} {r : BrowserRow} (h : r.Ok d)
include h

theorem updateOk_awaitGoogle (hs : r.stage = .awaitingStart) :
    UpdateOk P c .browserAuthorizations d r r.awaitGoogle := by
  obtain ⟨hv, hu, _, hcsrf, _, hlog⟩ := h.secrets
  refine updateOk_browser h ⟨rfl, rfl, rfl, rfl, rfl, .refl _, ?_⟩ ?_ (fun _ => .inl)
    fun _ => .inl
  · exact hs ▸ .single .start
  · constructor <;> simp_all [BrowserRow.awaitGoogle, Stage.rank]

theorem updateOk_cancel (hs : r.stage = .awaitingStart) :
    UpdateOk P c .browserAuthorizations d r r.cancel := by
  obtain ⟨hv, hu, _, hcsrf, _, hlog⟩ := h.secrets
  refine updateOk_browser h ⟨rfl, rfl, rfl, rfl, rfl, .refl _, ?_⟩ ?_ (fun _ => .inl)
    fun _ => .inl
  · exact hs ▸ .single .cancel
  · constructor <;> simp_all [BrowserRow.cancel, Stage.rank]

theorem updateOk_expireStart (hs : r.stage = .awaitingGoogle) :
    UpdateOk P c .browserAuthorizations d r r.expireStart := by
  obtain ⟨hv, hu, _, hcsrf, _, hlog⟩ := h.secrets
  refine updateOk_browser h ⟨rfl, rfl, rfl, rfl, rfl, .refl _, ?_⟩ ?_ (fun _ => .inl)
    fun _ => .inl
  · exact hs ▸ .single .expireStart
  · constructor <;> simp_all [BrowserRow.expireStart, Stage.rank]

theorem updateOk_claim {hash : Digest} (hs : r.stage = .awaitingGoogle)
    (howns : (calls P).Owns c (.hash hash))
    (hnew : ∀ y ∈ d.rows .browserAuthorizations,
      .hash hash ∉ Row.names (t := .browserAuthorizations) y) :
    UpdateOk P c .browserAuthorizations d r (r.claim hash) := by
  obtain ⟨hv, hu, _, hcsrf, _, hlog⟩ := h.secrets
  refine updateOk_browser h ⟨rfl, rfl, rfl, rfl, rfl, .refl _, ?_⟩ ?_ (fun _ => .inl)
    fun x hx => .inr ?_
  · exact hs ▸ .single .claim
  · constructor <;> simp_all [BrowserRow.claim, Stage.rank]
  · obtain rfl : hash = x := Option.some.inj hx
    exact ⟨howns, hnew⟩

theorem updateOk_fail (hs : r.stage = .callbackClaimed) :
    UpdateOk P c .browserAuthorizations d r r.fail := by
  obtain ⟨hv, hu, _, hcsrf, _, hlog⟩ := h.secrets
  refine updateOk_browser h ⟨rfl, rfl, rfl, rfl, rfl, .refl _, ?_⟩ ?_ (fun _ => .inl)
    fun _ => .inl
  · exact hs ▸ .single .fail
  · constructor <;> simp_all [BrowserRow.fail, Stage.rank]

theorem updateOk_denyCallback (hs : r.stage = .callbackClaimed) :
    UpdateOk P c .browserAuthorizations d r r.denyCallback := by
  obtain ⟨hv, hu, _, hcsrf, _, hlog⟩ := h.secrets
  refine updateOk_browser h ⟨rfl, rfl, rfl, rfl, rfl, .refl _, ?_⟩ ?_ (fun _ => .inl) nofun
  · exact hs ▸ .single .denyCallback
  · constructor <;> simp_all [BrowserRow.denyCallback, Stage.rank]

theorem updateOk_expireCallback (hs : r.stage = .callbackClaimed) :
    UpdateOk P c .browserAuthorizations d r r.expireCallback := by
  obtain ⟨hv, hu, _, hcsrf, _, hlog⟩ := h.secrets
  refine updateOk_browser h ⟨rfl, rfl, rfl, rfl, rfl, .refl _, ?_⟩ ?_ (fun _ => .inl)
    fun _ => .inl
  · exact hs ▸ .single .expireCallback
  · constructor <;> simp_all [BrowserRow.expireCallback, Stage.rank]

theorem updateOk_complete {session : Uuid} {csrf : Digest} (hs : r.stage = .callbackClaimed)
    (hsess : ∃ s ∈ d.rows .providerSessions, SessionRow.id s = session) :
    UpdateOk P c .browserAuthorizations d r (r.complete session csrf) := by
  obtain ⟨hv, hu, _, hcsrf, _, hlog⟩ := h.secrets
  have hnone : r.sessionId = none := hlog (by simp [hs, Stage.rank])
  refine updateOk_browser h ⟨rfl, rfl, rfl, rfl, rfl, ?_, ?_⟩ ?_ (fun u hu => .inr ?_) nofun
  · rw [hnone]
    exact .none _
  · exact hs ▸ .single .complete
  · constructor <;> simp_all [BrowserRow.complete, Stage.rank]
  · obtain rfl : session = u := Option.some.inj hu
    exact hsess

theorem updateOk_approve (hs : r.stage = .awaitingConsent) :
    UpdateOk P c .browserAuthorizations d r r.approve := by
  obtain ⟨hv, hu, _, hcsrf, hsess, _⟩ := h.secrets
  refine updateOk_browser h ⟨rfl, rfl, rfl, rfl, rfl, .refl _, ?_⟩ ?_ (fun _ => .inl)
    fun _ => .inl
  · exact hs ▸ .single .approve
  · constructor <;> simp_all [BrowserRow.approve, Stage.rank]

theorem updateOk_deny (hs : r.stage = .awaitingConsent) :
    UpdateOk P c .browserAuthorizations d r r.deny := by
  obtain ⟨hv, hu, _, hcsrf, hsess, _⟩ := h.secrets
  refine updateOk_browser h ⟨rfl, rfl, rfl, rfl, rfl, .refl _, ?_⟩ ?_ (fun _ => .inl)
    fun _ => .inl
  · exact hs ▸ .single .deny
  · constructor <;> simp_all [BrowserRow.deny, Stage.rank]

end Moves

/-! ## 2. Until Google -/

theorem pending_binding (pending : PendingAuthorizationGrant) (j : Json)
    (h : pending.cimdBindingJson = some j) : ∃ b : CimdSecurityBinding, j = b.toJson := by
  obtain ⟨d, _, e⟩ := Option.map_eq_some_iff.mp h
  exact ⟨d.binding, e.symm⟩

theorem keeps_beginGoogle (pending : PendingAuthorizationGrant)
    (downstreamState oidcNonce : Option String) (allow : Bool) :
    (beginGoogle P c.tape pending downstreamState oidcNonce allow).tx.Keeps (contract P) c := by
  refine sound_checked fun _ _ => sound_insert (fun _ _ _ _ _ _ => rfl) (fun db hf => ?_)
    fun db hf => sound_checked fun _ _ => sound_commit ..
  refine insertOk_drawn hf.good.fresh rfl (fun n hn => ?_)
    ⟨le_refl _, pending.sorted, pending_binding pending, nofun, ?_⟩ fun k hk => by cases hk
  · rcases BrowserRow.mem_names.mp hn with rfl | ⟨x, hx | hx, rfl⟩
    · exact draws_id 0
    · obtain rfl : c.tape.hash P 0 = x := Option.some.inj hx
      exact draws_hash 0
    · cases hx
  · constructor <;> simp [BrowserRow.google]

theorem keeps_startGoogle (transactionId : Uuid) (state binding : String) :
    (startGoogle P c.tape transactionId state binding).tx.Keeps (contract P) c := by
  refine sound_update_found (S := schema) (X := calls P) (t := .browserAuthorizations)
    (.id transactionId) (fun x hx => ?_) (fun _ => rfl) rfl (fun db row hf _ hp => ?_)
    fun row _ => sound_commit ..
  · simp only [Bool.and_eq_true, decide_eq_true_eq] at hx
    exact hx.1.1.1 ▸ List.mem_cons_self
  · simp only [Bool.and_eq_true, decide_eq_true_eq] at hp
    exact updateOk_awaitGoogle (hf.inv.ok .browserAuthorizations row ‹_›) hp.1.2

/-- A move of a transaction that is locked and found again by its id. -/
theorem sound_move {id : Uuid} {set : BrowserRow → BrowserRow}
    {k : List BrowserRow → Tx schema ρ} (row : BrowserRow) (hid : row.id = id)
    (hclean : ∀ d, (l.now.eff d).rows .browserAuthorizations = d.rows .browserAuthorizations)
    (hK : ∀ d, K d → row ∈ d.rows .browserAuthorizations)
    (hw : ∀ db, Finds (calls P) c K l db → row.Ok (l.now.eff db) →
      UpdateOk P c .browserAuthorizations (l.now.eff db) row (set row))
    (hk : ∀ l', (k [set row]).Sound (contract P) c m K l') :
    (update .browserAuthorizations (fun r => r.id = id) set k).Sound (contract P) c m K l :=
  sound_updateLocked (t := .browserAuthorizations) row (decide_eq_true hid)
    (fun _ hx => (of_decide_eq_true hx).trans hid.symm) hclean hK
    (fun db hf => hw db hf (hf.view.ok .browserAuthorizations row
      (by rw [hclean]; exact hK db hf.known))) (hk _)

theorem keeps_cancelGoogle (transactionId : Uuid) (state binding : String)
    (registry : Option ClientRegistry) :
    (cancelGoogle P c.tape transactionId state binding registry).tx.Keeps (contract P) c := by
  refine sound_lockOr (.id transactionId) (fun x hx => ?_) (fun _ => rfl) fun _ row _ _ hp =>
    sound_checked fun _ _ => ?_
  · simp only [Bool.and_eq_true, decide_eq_true_eq] at hx
    exact hx.1.1.1 ▸ List.mem_cons_self
  · simp only [Bool.and_eq_true, decide_eq_true_eq] at hp
    refine sound_move row hp.1.1.1 (fun _ => rfl) (fun d h => h.2)
      (fun db _ hok => updateOk_cancel hok hp.1.2) fun _ => ?_
    exact sound_checked fun _ _ => sound_commit ..

theorem keeps_beginAuthenticated (session : ProviderSession)
    (pending : PendingAuthorizationGrant) (downstreamState oidcNonce : Option String)
    (allow : Bool) :
    (beginAuthenticated P c.tape session pending downstreamState oidcNonce allow).tx.Keeps
      (contract P) c := by
  refine sound_lockSession (fun _ => rfl) fun _ s _ _ hid => sound_ensure fun _ =>
    sound_checked fun _ _ => sound_insert (fun _ _ _ _ _ _ => rfl) (fun db hf => ?_)
    fun db hf => sound_checked fun _ _ => sound_commit ..
  refine insertOk_drawn hf.good.fresh rfl (fun n hn => ?_)
    ⟨le_refl _, pending.sorted, pending_binding pending, fun u hu => ⟨s, ?_, ?_⟩, ?_⟩
    fun k hk => by cases hk
  · rcases BrowserRow.mem_names.mp hn with rfl | ⟨x, hx | hx, rfl⟩
    · exact draws_id 0
    · cases hx
    · cases hx
  · rw [Db.insert_rows_ne _ _ (by decide)]
    exact hf.known.2
  · exact hid.trans (Option.some.inj hu)
  · constructor <;> simp [BrowserRow.authenticated, Stage.rank]

theorem keeps_sessionUpstreamAuthTime (session : ProviderSession) :
    (sessionUpstreamAuthTime c.tape session).tx.Keeps (contract P) c :=
  sound_lockSession (fun _ => rfl) fun _ _ _ _ _ => sound_ensure fun _ => sound_commit ..

/-! ## 3. The callback -/

theorem keeps_claimCallback (state binding : String) :
    (claimCallback P c.tape state binding).tx.Keeps (contract P) c := by
  refine sound_lockOr (.hash (secretHash P state)) (fun x hx => ?_) (fun _ => rfl)
    fun _ row _ _ hp => sound_checked fun _ _ => sound_checked fun _ _ => ?_
  · simp only [BrowserRow.heldBy, Bool.and_eq_true, decide_eq_true_eq] at hx
    exact BrowserRow.mem_names.mpr (Or.inr ⟨_, Or.inl hx.1.1, rfl⟩)
  · simp only [Bool.and_eq_true, decide_eq_true_eq] at hp
    split
    · exact sound_move row rfl (fun _ => rfl) (fun d h => h.2)
        (fun db _ hok => updateOk_expireStart hok hp.2) fun _ => sound_commit ..
    · refine sound_move row rfl (fun _ => rfl) (fun d h => h.2) (fun db hf hok => ?_)
        fun _ => sound_commit ..
      exact updateOk_claim hok hp.2 (Or.inl (draws_hash 0)) fun y hy hn =>
        hf.good.fresh .browserAuthorizations y hy _ hn (draws_hash 0)

theorem claimedBy_name {claim : String} {r : BrowserRow} (h : r.claimedBy P claim = true) :
    .hash (secretHash P claim) ∈ Row.names (t := .browserAuthorizations) r := by
  simp only [BrowserRow.claimedBy, Bool.and_eq_true, decide_eq_true_eq] at h
  exact BrowserRow.mem_names.mpr (Or.inr ⟨_, Or.inr h.1, rfl⟩)

theorem claimedBy_stage {claim : String} {r : BrowserRow} (h : r.claimedBy P claim = true) :
    r.stage = .callbackClaimed := by
  simp only [BrowserRow.claimedBy, Bool.and_eq_true, decide_eq_true_eq] at h
  exact h.2

theorem keeps_failCallback (claim : String) :
    (failCallback P claim).tx.Keeps (contract P) c :=
  sound_update_found (S := schema) (X := calls P) (t := .browserAuthorizations)
    (.hash (secretHash P claim)) (fun _ hx => claimedBy_name hx) (fun _ => rfl) rfl
    (fun _ row hf hr hp => updateOk_fail (hf.inv.ok .browserAuthorizations row hr)
      (claimedBy_stage hp)) fun _ _ => sound_commit ..

theorem keeps_denyCallback (claim : String) (registry : ClientRegistry) :
    (denyCallback P c.tape claim registry).tx.Keeps (contract P) c := by
  refine sound_lockOr (.hash (secretHash P claim)) (fun x hx => claimedBy_name hx)
    (fun _ => rfl) fun _ row _ _ hp => sound_ensure fun _ => sound_checked fun _ _ => ?_
  have hstage := claimedBy_stage hp
  simp only [BrowserRow.claimedBy, Bool.and_eq_true, decide_eq_true_eq] at hp
  refine sound_update_row (S := schema) (X := calls P) (t := .browserAuthorizations) row
    (fun d hd hKd => ?_) (fun db hf => ?_) (sound_checked fun _ _ => sound_commit ..)
  · exact hd.inv.filter (n := .hash (secretHash P claim)) (fun y hy =>
      BrowserRow.mem_names.mpr (Or.inr ⟨_, Or.inr (of_decide_eq_true hy), rfl⟩)) hKd.2
      (decide_eq_true hp.1)
  · exact updateOk_denyCallback (hf.inv.ok .browserAuthorizations row hf.known.2) hstage

theorem keeps_transactionClientId (id : Uuid) :
    (transactionClientId id).tx.Keeps (contract P) c := sound_selectOr_last fun _ => rfl

theorem keeps_callbackClientId (claim : String) :
    (callbackClientId P claim).tx.Keeps (contract P) c := sound_selectOr_last fun _ => rfl

/-! ## 4. Consent -/

theorem sound_lockConsent {handle : ConsentHandle} {session : Uuid}
    {k : BrowserRow → Tx schema (Except BrowserError α)}
    {m : Option (Mark schema (Except BrowserError α))}
    (hclean : ∀ d, (l.now.eff d).rows .browserAuthorizations = d.rows .browserAuthorizations)
    (hk : ∀ row, row.id = handle.transactionId → row.stage = .awaitingConsent →
      (k row).Sound (contract P) c m (fun d => K d ∧ row ∈ d.rows .browserAuthorizations)
        (l.lock [.row .browserAuthorizations row.id])) :
    (lockConsent P handle session k).Sound (contract P) c m K l := by
  refine sound_lockOr (.id handle.transactionId) (fun x hx => ?_) hclean
    fun _ row _ _ hp => ?_
  · simp only [Bool.and_eq_true, decide_eq_true_eq] at hx
    exact hx.1.1.1 ▸ List.mem_cons_self
  · simp only [Bool.and_eq_true, decide_eq_true_eq] at hp
    exact hk row hp.1.1.1 hp.2

theorem sound_issueConsented {session : ProviderSession} {handle : ConsentHandle}
    {s : SessionRow} {row : BrowserRow} {grant : ValidatedAuthorizationGrant}
    {k : String → Tx schema ρ} (hid : s.id = session.id)
    (hrid : row.id = handle.transactionId) (hstage : row.stage = .awaitingConsent)
    (hsess : ∀ d, (l.now.eff d).rows .providerSessions = d.rows .providerSessions)
    (hcodes : ∀ d, (l.now.eff d).rows .authorizationCodes = d.rows .authorizationCodes)
    (hrows : ∀ d, (l.now.eff d).rows .browserAuthorizations = d.rows .browserAuthorizations)
    (hs : ∀ d, K d → s ∈ d.rows .providerSessions)
    (hr : ∀ d, K d → row ∈ d.rows .browserAuthorizations)
    (hk : ∀ l', (k (c.tape.secret 0)).Sound (contract P) c m K l') :
    (issueConsented P c.tape session handle s row grant k).Sound (contract P) c m K l := by
  refine sound_insertAuthorizationCode s hid rfl (le_refl _) hsess hcodes hs fun code => ?_
  refine sound_move row hrid (fun d => ?_) hr (fun db _ hok => updateOk_approve hok hstage)
    fun _ => hk _
  rw [Local.write_eff, Db.insert_rows_ne _ _ (by decide)]
  exact hrows d

theorem keeps_approve (session : ProviderSession) (handle : ConsentHandle)
    (registry : ClientRegistry) :
    (approve P c.tape session handle registry).tx.Keeps (contract P) c := by
  refine sound_lockSession (fun _ => rfl) fun _ s _ _ hid => ?_
  refine sound_lockConsent (fun _ => rfl) fun row hrid hstage => ?_
  refine sound_ensure fun _ => sound_checked fun _ _ => sound_checked fun _ _ => ?_
  exact sound_issueConsented hid hrid hstage (fun _ => rfl) (fun _ => rfl) (fun _ => rfl)
    (fun d h => h.1.2) (fun d h => h.2) fun _ => sound_checked fun _ _ => sound_commit ..

theorem keeps_approvePreAuthorized (session : ProviderSession) (handle : ConsentHandle)
    (registry : ClientRegistry) :
    (approvePreAuthorized P c.tape session handle registry).tx.Keeps (contract P) c := by
  refine sound_lockSession (fun _ => rfl) fun _ s _ _ hid => ?_
  refine sound_lockConsent (fun _ => rfl) fun row hrid hstage => ?_
  refine sound_ensure fun _ => sound_checked fun _ _ => sound_ensure fun _ =>
    sound_checked fun _ _ => ?_
  exact sound_issueConsented hid hrid hstage (fun _ => rfl) (fun _ => rfl) (fun _ => rfl)
    (fun d h => h.1.2) (fun d h => h.2) fun _ => sound_checked fun _ _ =>
      sound_ensure fun _ => sound_ensure fun _ => sound_commit ..

/-- The profile is the last thing a consent page reads. -/
theorem keeps_consentView (session : ProviderSession) (handle : ConsentHandle)
    (registry : ClientRegistry) :
    (consentView P c.tape session handle registry).tx.Keeps (contract P) c := by
  refine sound_lockSession (fun _ => rfl) fun _ s _ _ _ => ?_
  refine sound_lockConsent (fun _ => rfl) fun row _ _ => ?_
  refine sound_ensure fun _ => sound_checked fun _ _ => sound_checked fun _ _ =>
    sound_settled fun db => ?_
  simp only [bind_apply, checked]
  split <;> rfl

theorem keeps_deny (session : ProviderSession) (handle : ConsentHandle)
    (registry : Option ClientRegistry) :
    (deny P c.tape session handle registry).tx.Keeps (contract P) c := by
  refine sound_lockSession (fun _ => rfl) fun _ s _ _ _ => ?_
  refine sound_lockConsent (fun _ => rfl) fun row hrid hstage => ?_
  refine sound_ensure fun _ => sound_checked fun _ _ => ?_
  exact sound_move row hrid (fun _ => rfl) (fun d h => h.2)
    (fun db _ hok => updateOk_deny hok hstage) fun _ => sound_checked fun _ _ => sound_commit ..

/-! ## 5. Identities -/

/-- What is known after a user was found or created. -/
structure KnowsUser (P : Platform) (c : Request) (K : Db → Prop) (l : Local schema)
    (user : Uuid) (K' : Db → Prop) (l' : Local schema) : Prop where
  known : ∀ d, K' d → K d
  held : l.now.held ⊆ l'.now.held
  saved : l'.saved = l.saved
  rows : ∀ t d, t ≠ .users → t ≠ .externalIdentities → (l'.now.eff d).rows t =
    (l.now.eff d).rows t
  stored : ∀ d, (contract P).Good c d → K' d →
    ∃ u ∈ (l'.now.eff d).rows .users, User.id u = user

theorem findIdentity_stable {L : List Lock} {db d : Db} {issuer subject : String}
    (hd : (layout P).Integrity d) (hr : (layout P).Rely L db d)
    (hlock : .advisory (identityLock P issuer subject) ∈ L) :
    findIdentity d issuer subject = findIdentity db issuer subject := by
  have hp : ∀ x : ExternalIdentityRow, (x.issuer = issuer && x.subject = subject : Bool) = true →
      x.issuer = issuer ∧ x.subject = subject := fun x hx => by
    simpa only [Bool.and_eq_true, decide_eq_true_eq] using hx
  unfold findIdentity
  cases ha : (db.rows .externalIdentities).find?
      fun i => decide (i.issuer = issuer) && decide (i.subject = subject) with
  | none =>
      rw [Layout.rely_find_none (Y := layout P) (t := .externalIdentities) hr
        (fun x x' h => by rw [show x' = x from h]) (fun x _ hx => ?_) ha]
      refine ⟨_, List.mem_singleton_self _, ?_⟩
      rw [(hp x hx).1, (hp x hx).2]
      exact hlock
  | some x =>
      have hname : ∀ y : ExternalIdentityRow, (y.issuer = issuer && y.subject = subject : Bool)
          = true → .subject issuer subject ∈ Row.names (t := .externalIdentities) y := by
        intro y hy
        obtain ⟨rfl, rfl⟩ := hp y hy
        exact List.mem_cons_of_mem _ List.mem_cons_self
      obtain ⟨x', hx', e⟩ := Layout.rely_find (Y := layout P) (t := .externalIdentities) hd hr
        hname (fun y y' h => by rw [show y' = y from h]) ha
      rw [hx', show x' = x from e]

theorem findIdentity_user {d : Db} {issuer subject : String} {user : Uuid}
    (hd : (layout P).Integrity d) (h : findIdentity d issuer subject = some user) :
    ∃ u ∈ d.rows .users, User.id u = user := by
  obtain ⟨x, hx, rfl⟩ := Option.map_eq_some_iff.mp h
  exact hd.ok .externalIdentities x (List.mem_of_find?_eq_some hx)

theorem sound_findOrCreateUser {issuer subject : String} {k : Uuid → Tx schema ρ}
    (hlock : .advisory (identityLock P issuer subject) ∈ l.now.held)
    (hu : ∀ d, (l.now.eff d).rows .users = d.rows .users)
    (hi : ∀ d, (l.now.eff d).rows .externalIdentities = d.rows .externalIdentities)
    (hk : ∀ user K' l', KnowsUser P c K l user K' l' → (k user).Sound (contract P) c m K' l') :
    (findOrCreateUser c.tape issuer subject k).Sound (contract P) c m K l := by
  have hview : ∀ d, findIdentity (l.now.eff d) issuer subject = findIdentity d issuer subject :=
    fun d => by rw [findIdentity, hi, findIdentity]
  refine sound_select (fun db d hf hd hKd hr => ?_) fun db hf => ?_
  · rw [hview, hview]
    exact findIdentity_stable hd.inv hr hlock
  simp only [hview]
  cases ha : findIdentity db issuer subject with
  | some user =>
      refine hk user _ _ ⟨fun d h => h.1, List.Subset.refl _, rfl, fun _ _ _ _ => rfl,
        fun d hd hKd => ?_⟩
      rw [hu]
      exact findIdentity_user hd.inv hKd.2
  | none =>
      have hno : ∀ d, findIdentity d issuer subject = none →
          ∀ x ∈ d.rows .externalIdentities, ¬(x.issuer = issuer ∧ x.subject = subject) := by
        intro d hd x hx hxs
        refine List.find?_eq_none.mp (Option.map_eq_none_iff.mp hd) x hx ?_
        simp [hxs.1, hxs.2]
      refine sound_insert (fun _ _ _ _ _ _ => rfl) (fun db hf => ?_) fun db hf => ?_
      · refine insertOk_drawn hf.good.fresh (hu db) (fun n hn => ?_) trivial
          fun k hk => by cases hk
        obtain rfl := List.mem_singleton.mp hn
        exact draws_id 1
      refine sound_insert (fun _ _ _ _ _ _ => rfl) (fun db hf => ⟨?_, ?_, ?_, ?_⟩)
        fun db hf => ?_
      · -- a stored identity has another subject and a stored user
        intro x hx n hn hn'
        have hx : x ∈ db.rows .externalIdentities := by
          rw [Local.write_eff, Db.insert_rows_ne _ _ (by decide)] at hx
          exact hi db ▸ hx
        rcases List.mem_cons.mp hn' with rfl | hn'
        · obtain ⟨u, hmem, e⟩ := hf.inv.ok .externalIdentities x hx
          refine hf.good.fresh .users u hmem (.id (c.tape.uuid 1)) ?_
            (draws_id (P := P) 1)
          have : c.tape.uuid 1 = ExternalIdentityRow.userId x := by
            simpa [Row.names] using hn
          rw [this, ← e]
          exact List.mem_cons_self
        · rw [List.mem_singleton] at hn'
          subst hn'
          have : issuer = ExternalIdentityRow.issuer x ∧
              subject = ExternalIdentityRow.subject x := by simpa [Row.names] using hn
          exact hno db hf.known.2 x hx ⟨this.1.symm, this.2.symm⟩
      · refine ⟨⟨c.tape.uuid 1⟩, ?_, rfl⟩
        rw [Db.insert_rows_ne _ _ (by decide), Local.write_eff, Db.insert_rows_self]
        exact List.mem_append_right _ List.mem_cons_self
      · intro n hn
        refine Or.inr fun c' h => ?_
        rcases List.mem_cons.mp hn with rfl | hn
        · exact h
        · rw [List.mem_singleton] at hn
          subst hn
          exact h
      · intro k hk
        obtain rfl := List.mem_singleton.mp hk
        exact List.mem_cons_of_mem _ hlock
      · refine hk _ _ _ ⟨fun d h => h.1, fun k hk => ?_, rfl, fun t d hu hi => ?_,
          fun d _ _ => ⟨⟨c.tape.uuid 1⟩, ?_, rfl⟩⟩
        · exact List.mem_cons_of_mem _ (List.mem_cons_of_mem _ hk)
        · rw [Local.write_eff, Db.insert_rows_ne _ _ hi, Local.lock_eff, Local.write_eff,
            Db.insert_rows_ne _ _ hu]
          rfl
        · rw [Local.write_eff, Db.insert_rows_ne _ _ (by decide), Local.lock_eff,
            Local.write_eff, Db.insert_rows_self]
          exact List.mem_append_right _ List.mem_cons_self

theorem keeps_findOrCreateExternalIdentity (issuer subject : String) :
    (findOrCreateExternalIdentity P c.tape issuer subject).tx.Keeps (contract P) c :=
  sound_advisoryLock (sound_findOrCreateUser List.mem_cons_self (fun _ => rfl) (fun _ => rfl)
    fun _ _ _ _ => sound_commit ..)

/-- The profile of a known user. -/
theorem sound_upsertProfile {user : Uuid} {identity : VerifiedGoogleIdentity} {now : Time}
    {k : Unit → Tx schema ρ}
    (huser : ∀ d, (contract P).Good c d → K d → ∃ u ∈ (l.now.eff d).rows .users, User.id u = user)
    (hk : (k ()).Sound (contract P) c m K ((l.lock [.row .userProfiles user]).write fun d =>
      d.upsert .userProfiles (ProfileRow.of user identity now)
        fun r => .of r.userId identity now)) :
    (upsert .userProfiles (ProfileRow.of user identity now)
      (fun r => .of r.userId identity now) k).Sound (contract P) c m K l := by
  refine sound_upsert (S := schema) (X := calls P) (t := .userProfiles)
    (fun db r hf hr _ => ⟨rfl, ?_, fun n hn => Or.inl hn⟩)
    (fun db hf hno => ⟨fun r hr n hn hn' => ?_, ?_, fun n hn => Or.inr fun c' h => ?_,
      fun k hk => by cases hk⟩) hk
  · exact hf.view.ok .userProfiles r hr
  · obtain rfl := List.mem_singleton.mp hn'
    have : user = ProfileRow.userId r := by simpa [Row.names, ProfileRow.of] using hn
    exact hno r hr this.symm
  · obtain ⟨u, hu, e⟩ := huser db hf.good hf.known
    exact ⟨u, by rwa [Db.insert_rows_ne _ _ (by decide)], e⟩
  · obtain rfl := List.mem_singleton.mp hn
    exact h

theorem sound_upsertVerifiedGoogleIdentity {identity : VerifiedGoogleIdentity} {now : Time}
    {k : Uuid → Tx schema ρ}
    (hlock : .advisory (identityLock P googleIssuer identity.subject) ∈ l.now.held)
    (hu : ∀ d, (l.now.eff d).rows .users = d.rows .users)
    (hi : ∀ d, (l.now.eff d).rows .externalIdentities = d.rows .externalIdentities)
    (hk : ∀ user K' l', (∀ d, K' d → K d) → l'.saved = l.saved →
      (∀ t d, t ≠ .users → t ≠ .externalIdentities → t ≠ .userProfiles →
        (l'.now.eff d).rows t = (l.now.eff d).rows t) → l.now.held ⊆ l'.now.held →
      (k user).Sound (contract P) c m K' l') :
    (upsertVerifiedGoogleIdentity c.tape identity now k).Sound (contract P) c m K l := by
  refine sound_findOrCreateUser hlock hu hi fun user K' l' h => ?_
  refine sound_upsertProfile h.stored (hk user K' _ h.known h.saved (fun t d hu hi hp => ?_) ?_)
  · rw [Local.write_eff, Db.upsert_rows_ne _ _ _ hp]
    exact h.rows t d hu hi
  · exact List.Subset.trans h.held (List.subset_cons_self ..)

theorem keeps_findOrCreateVerifiedGoogleIdentity (identity : VerifiedGoogleIdentity) :
    (findOrCreateVerifiedGoogleIdentity P c.tape identity).tx.Keeps (contract P) c :=
  sound_advisoryLock (sound_upsertVerifiedGoogleIdentity List.mem_cons_self (fun _ => rfl)
    (fun _ => rfl) fun _ _ _ _ _ _ _ => sound_commit ..)

theorem keeps_userProfile (user : Uuid) :
    (userProfile user).tx.Keeps (contract P) c := sound_settled fun _ => rfl

/-! ## 6. The login -/

theorem sound_checkedStaged {ε β : Type} {x : Except ε α} {k : α → Tx schema (Except ε β)}
    {m : Option (Mark schema (Except ε β))}
    (h : ∀ a, x = .ok a → (k a).Sound (contract P) c m K l) :
    (checkedStaged x k).Sound (contract P) c m K l := by
  cases x with
  | ok a => exact h a rfl
  | error e => exact sound_settled fun _ => rfl

theorem solo_stmt {β : Type} {db : Db} {s : Stmt schema β} {k : β → Tx schema ρ}
    {b : Tx schema ρ × Local schema}
    (h : Solo db (k (s.step db l).1, (s.step db l).2) b) : Solo db (.stmt s k, l) b :=
  .head (.stmt s k l) h

/-- Alone, a call gets past the identity lookup, whatever it finds. -/
theorem solo_findOrCreateUser {db : Db} {issuer subject : String} {k : Uuid → Tx schema ρ}
    {b : Tx schema ρ × Local schema}
    (h : ∀ user l', l'.saved = l.saved → Solo db (k user, l') b) :
    Solo db (findOrCreateUser c.tape issuer subject k, l) b := by
  refine solo_stmt ?_
  simp only [Stmt.step]
  cases findIdentity (l.now.eff db) issuer subject with
  | some user => exact h user l rfl
  | none => exact solo_stmt (solo_stmt (h _ _ rfl))

theorem keeps_completeCallback (claim : String) (identity : VerifiedGoogleIdentity)
    (lifetime : Duration) (registry : Option ClientRegistry) :
    (completeCallback P c.tape claim identity lifetime registry).tx.Keeps (contract P) c := by
  refine sound_checked fun seconds hseconds => ?_
  refine sound_lockOr (.hash (secretHash P claim)) (fun x hx => claimedBy_name hx)
    (fun _ => rfl) fun _ row _ _ hp => ?_
  refine sound_lockKey (BrowserRow.id row) (fun x hx => of_decide_eq_true hx) (fun _ => rfl)
    fun _ policyRow _ _ _ => sound_checked fun _ _ => ?_
  refine sound_savepoint (sound_advisoryLock (sound_checkedStaged fun _ hvalid => ?_))
  refine sound_upsertVerifiedGoogleIdentity List.mem_cons_self (fun _ => rfl) (fun _ => rfl)
    fun user K' l' hK hsaved hrows hheld => ?_
  refine sound_insert (fun _ _ _ _ _ _ => rfl) (fun db hf => ?_) fun db hf => ?_
  · refine insertOk_drawn hf.good.fresh (hrows _ db (by decide) (by decide) (by decide))
      (fun n hn => ?_) ?_ fun k hk => by cases hk
    · rcases List.mem_cons.mp hn with rfl | hn
      · exact draws_id 0
      · rw [List.mem_singleton] at hn
        subst hn
        exact draws_hash 0
    · exact Time.after_le (boundedSeconds_le hseconds)
  split
  · refine sound_rollbackToSavepoint hsaved (List.Subset.refl _) rfl (fun d _ _ => ?_) ?_
    · refine solo_stmt (solo_stmt ?_)
      simp only [bind_apply, hvalid, checkedStaged]
      refine solo_findOrCreateUser fun user l'' hs => solo_stmt (solo_stmt ?_)
      refine solo_stmt ?_
      simp only [Stmt.step, Local.write_saved, Local.lock_saved, hs]
      exact .refl
    · exact sound_move row rfl (fun _ => rfl) (fun d h => h.1.2)
        (fun db _ hok => updateOk_expireCallback hok (claimedBy_stage hp)) fun _ => sound_commit ..
  · refine sound_checkedStaged fun _ _ => sound_releaseSavepoint ?_
    have hrow : ∀ d, ((l'.now.eff d).insert .providerSessions (.start (c.tape.uuid 0)
        (c.tape.hash P 0) user identity.upstreamAuthTime (c.tape.now 0) seconds)).rows
        .browserAuthorizations = d.rows .browserAuthorizations := fun d => by
      rw [Db.insert_rows_ne _ _ (by decide)]
      exact hrows _ d (by decide) (by decide) (by decide)
    refine sound_updateLocked (t := .browserAuthorizations) row ?_ (fun x hx => ?_) hrow
      (fun d h => (hK d h).1.2) (fun db hf => ?_) ?_
    · simp [claimedBy_stage hp]
    · simp only [Bool.and_eq_true, decide_eq_true_eq] at hx
      exact hx.1
    · refine updateOk_complete (hf.view.ok .browserAuthorizations row
        (by exact hrow db ▸ (hK db hf.known).1.2)) (claimedBy_stage hp)
        ⟨.start (c.tape.uuid 0) (c.tape.hash P 0) user identity.upstreamAuthTime (c.tape.now 0)
          seconds, ?_, rfl⟩
      exact Db.insert_rows_self _ _ _ ▸ List.mem_append_right _ List.mem_cons_self
    · exact sound_ensure fun _ => sound_checked fun _ _ => sound_commit ..

/-! ## 7. Every call -/

/-- **Every call of the stores keeps to the contract.** -/
theorem program_keeps (P : Platform) (c : Request) : (program P c).Keeps (contract P) c := by
  unfold program
  cases c.call with
  | createProviderSession user lifetime =>
      exact sound_map _ _ (keeps_createProviderSession user lifetime)
  | findProviderSession raw => exact sound_map _ _ (keeps_findProviderSession raw)
  | issueAuthorizationCode session grant lifetime =>
      exact sound_map _ _ (keeps_issueAuthorizationCode session grant lifetime)
  | exchangeCode raw clientId redirectUri resource verifier =>
      exact sound_map _ _
        (keeps_exchangeCodeBound 0 raw clientId redirectUri resource verifier none _)
  | exchangeCodeRequest raw clientId redirectUri resource verifier scopes registry =>
      exact sound_map _ _
        (keeps_exchangeCodeRequest raw clientId redirectUri resource verifier scopes registry)
  | rotateRefresh raw clientId resource =>
      exact sound_map _ _ (keeps_rotateRefreshBound raw clientId resource none _)
  | rotateRefreshRequest raw clientId resource scopes registry =>
      exact sound_map _ _ (keeps_rotateRefreshRequest raw clientId resource scopes registry)
  | revokeRefresh raw clientId => exact sound_map _ _ (keeps_revokeRefresh raw clientId)
  | logout session => exact sound_map _ _ (keeps_logout session)
  | beginLogout session clientId redirect state registry =>
      exact sound_map _ _ (keeps_beginLogout session clientId redirect state registry)
  | beginLocal session localUri =>
      exact sound_map _ _ (keeps_insertLogout session "" localUri none)
  | finish session challenge registry =>
      exact sound_map _ _ (keeps_finish session challenge registry)
  | finishHint session challenge registry hint =>
      exact sound_map _ _ (keeps_finishInner session challenge registry (some hint))
  | transactionClientId id => exact sound_map _ _ (keeps_transactionClientId id)
  | callbackClientId claim => exact sound_map _ _ (keeps_callbackClientId claim)
  | beginGoogle pending downstreamState oidcNonce allow =>
      exact sound_map _ _ (keeps_beginGoogle pending downstreamState oidcNonce allow)
  | startGoogle transactionId state binding =>
      exact sound_map _ _ (keeps_startGoogle transactionId state binding)
  | cancelGoogle transactionId state binding registry =>
      exact sound_map _ _ (keeps_cancelGoogle transactionId state binding registry)
  | beginAuthenticated session pending downstreamState oidcNonce allow =>
      exact sound_map _ _
        (keeps_beginAuthenticated session pending downstreamState oidcNonce allow)
  | sessionUpstreamAuthTime session =>
      exact sound_map _ _ (keeps_sessionUpstreamAuthTime session)
  | claimCallback state binding => exact sound_map _ _ (keeps_claimCallback state binding)
  | failCallback claim => exact sound_map _ _ (keeps_failCallback claim)
  | denyCallback claim registry => exact sound_map _ _ (keeps_denyCallback claim registry)
  | completeCallback claim identity lifetime registry =>
      exact sound_map _ _ (keeps_completeCallback claim identity lifetime registry)
  | approve session handle registry => exact sound_map _ _ (keeps_approve session handle registry)
  | approvePreAuthorized session handle registry =>
      exact sound_map _ _ (keeps_approvePreAuthorized session handle registry)
  | consentView session handle registry =>
      exact sound_map _ _ (keeps_consentView session handle registry)
  | deny session handle registry => exact sound_map _ _ (keeps_deny session handle registry)
  | findOrCreateExternalIdentity issuer subject =>
      exact sound_map _ _ (keeps_findOrCreateExternalIdentity issuer subject)
  | findOrCreateVerifiedGoogleIdentity identity =>
      exact sound_map _ _ (keeps_findOrCreateVerifiedGoogleIdentity identity)
  | userProfile user => exact sound_map _ _ (keeps_userProfile user)

/-- **The stores are lawful from the empty database.** -/
theorem lawful (P : Platform) : Lawful (contract P) (program P) Sql.Db.empty where
  inv := ⟨fun _ => List.Pairwise.nil, fun _ _ h => by cases h⟩
  fresh _ _ _ h := by cases h
  keeps := program_keeps P

/-- **Statements of calls can be interleaved in any way.** Every state the machine reaches,
    statement by statement, is reached by the calls that took effect, made one at a time in
    some order: with the same answers, the same rows and the readings of their own tapes,
    a call that started after another one had returned after it. -/
theorem calls_serializable (P : Platform) {M : Machine schema Request Reply}
    (h : Reachable P M) : ∃ order, Linearized (program P) Sql.Db.empty M order :=
  ⟨M.log, linearized (lawful P) h⟩

namespace Sample

/-- A user signs in, and meanwhile a browser starts a transaction, each statement in its turn. -/
def signInMeanwhile : Sql.Machine schema Request Reply :=
  overlapped [(.findOrCreateVerifiedGoogleIdentity identity, [.login]),
    (.beginGoogle pending (some "downstream") none true, [.state, .binding, .nonce, .upstream])]
    [0, 1, 0, 1, 0, 0, 0, 0]

end Sample

/-- Two calls that overlap: the one that starts last is the first in the order. -/
theorem calls_serializable_overlap :
    Sample.signInMeanwhile.trace = [.start 0, .start 1, .reply 1, .reply 0] ∧
    Sample.signInMeanwhile.log.map (·.thread) = [1, 0] ∧
    ∃ order, Linearized (program Sample.platform) Sql.Db.empty Sample.signInMeanwhile order := by
  obtain ⟨htrace, hlog⟩ : Sample.signInMeanwhile.trace =
      [.start 0, .start 1, .reply 1, .reply 0] ∧
      Sample.signInMeanwhile.log.map (·.thread) = [1, 0] := by decide +kernel
  exact ⟨htrace, hlog,
    calls_serializable Sample.platform (Sample.reachable_overlapped (by decide) _)⟩

end Eri
