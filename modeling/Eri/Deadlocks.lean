/-
  File:      Eri/Deadlocks.lean
  Subject:   No deadlock among the transactions of the stores.

  The order of the locks: sessions first, then browser transactions, challenges and codes, then
  refresh tokens, then the lock of an identity, identities and profiles. Two kinds of locks are
  outside of it.

  * A transaction asks for the rows it has inserted itself at any time, as `complete_callback`
    does with its session: nobody else sees them.
  * The families of a session are locked in any order (`logout`, `finish`, the replay of a
    code), and always under the lock of their session, which no two transactions hold.

  `store_deadlock_free` -- **no set of transactions waits for each other**, in any run.
-/
import Eri.Changes
import Eri.Sql.Waits

namespace Eri

open Sql

variable {P : Platform} {c : Request} {db : Db} {l : Local schema} {ρ α : Type}

/-! ## 1. The order -/

def tableRank : Table → Nat
  | .providerSessions => 0
  | .browserAuthorizations | .logoutChallenges | .authorizationCodes => 1
  | .refreshFamilies => 2
  | .refreshTokenMembers => 3
  | .users | .externalIdentities => 5
  | .userProfiles => 6

/-- The lock of an identity comes before its user and its profile. -/
def lockRank : Lock → Nat
  | .row t _ => tableRank t
  | .advisory _ => 4

theorem tableRank_le (t : Table) : tableRank t ≤ 6 := by cases t <;> decide

theorem lockRank_le (k : Lock) : lockRank k ≤ 6 := by
  cases k with
  | row t u => exact tableRank_le t
  | advisory a => exact Nat.le_of_ble_eq_true rfl

/-- The tables whose rows have ids of their own. -/
def Table.drawn (t : Table) : Prop := t ≠ .externalIdentities ∧ t ≠ .userProfiles

instance (t : Table) : Decidable t.drawn :=
  inferInstanceAs (Decidable (t ≠ .externalIdentities ∧ t ≠ .userProfiles))

theorem row_ne {t t' : Table} {u u' : Uuid} (h : t ≠ t') :
    (.row t u : Lock) ≠ .row t' u' := fun e => h (Lock.row.inj e).1

theorem keyName_drawn {t : Table} (h : t.drawn) (u : Uuid) : Row.keyName t u = .id u := by
  obtain ⟨hi, hp⟩ := h
  cases t with
  | externalIdentities => exact absurd rfl hi
  | userProfiles => exact absurd rfl hp
  | _ => rfl

/-- The locks of the rows a call inserts. -/
def Owned (c : Request) : Lock → Prop
  | .row t u => t.drawn ∧ ∃ i, u = c.tape.uuid i
  | .advisory _ => False

/-- A family is locked under its session. -/
def Guards (db : Db) (g k : Lock) : Prop :=
  ∃ f ∈ db.rows .refreshFamilies, k = .row .refreshFamilies (FamilyRow.id f) ∧
    g = .row .providerSessions (FamilyRow.sessionId f)

/-- **The order of the locks of the stores.** -/
def lockOrder (P : Platform) : Order (contract P) where
  rank := lockRank
  bound := 6
  rank_le := lockRank_le
  owned := Owned
  guards := Guards
  apart := by
    rintro c c' k hcompat hown hown'
    cases k with
    | advisory a => exact hown
    | row t u =>
        obtain ⟨_, i, rfl⟩ := hown
        obtain ⟨_, j, e⟩ := hown'
        exact hcompat (.id (c.tape.uuid i)) ⟨i, rfl⟩ ⟨j, e⟩
  fresh := by
    rintro c db k hgood hown ⟨t, r, hr, rfl⟩
    obtain ⟨hdrawn, i, hi⟩ := hown
    have hname : Row.keyName t (Row.key r) ∈ Row.names r := Row.keyName_mem r
    rw [keyName_drawn hdrawn] at hname
    exact hgood.fresh t r hr _ hname ⟨i, hi⟩

/-! ## 2. What may be locked -/

/-- A stored row, after rows of lower rank. -/
theorem may_row {t : Table} {r : Row t} {held : List Lock} (ht : t ≠ .refreshFamilies)
    (hr : r ∈ db.rows t) (hheld : (lockOrder P).Below c held (tableRank t)) :
    (lockOrder P).May c db held (.row t (Row.key r)) where
  known := Or.inr (Or.inl ⟨t, r, hr, rfl⟩)
  guarded := fun _ ⟨_, _, e, _⟩ => absurd e (row_ne ht)
  ordered := Or.inr (Or.inr hheld)

/-- A stored family, under its session. -/
theorem may_family {f : FamilyRow} {held : List Lock} (hdb : (layout P).Integrity db)
    (hf : f ∈ db.rows .refreshFamilies) (hheld : .row .providerSessions f.sessionId ∈ held) :
    (lockOrder P).May c db held (.row .refreshFamilies f.id) where
  known := Or.inr (Or.inl ⟨.refreshFamilies, f, hf, rfl⟩)
  guarded := by
    rintro g ⟨f', hf', e, rfl⟩
    have hid : FamilyRow.id f = FamilyRow.id f' := (Lock.row.inj e).2
    have hsame : f = f' := same_key (t := .refreshFamilies) hdb hf hf' hid
    rw [← hsame]
    exact hheld
  ordered := Or.inr (Or.inl ⟨_, f, hf, rfl, rfl⟩)

/-- A row of the call's own. -/
theorem may_drawn {t : Table} {held : List Lock} (hgood : (contract P).Good c db)
    (ht : t.drawn) (i : Fin 2) :
    (lockOrder P).May c db held (.row t (c.tape.uuid i)) where
  known := Or.inl ⟨ht, i, rfl⟩
  guarded := by
    rintro g ⟨f, hf, e, _⟩
    have hcommitted : Committed db (.row t (c.tape.uuid i)) := by
      rw [e]
      exact ⟨.refreshFamilies, f, hf, rfl⟩
    exact absurd hcommitted ((lockOrder P).fresh hgood ⟨ht, i, rfl⟩)
  ordered := Or.inl ⟨ht, i, rfl⟩

/-- The lock of an identity, after rows of sessions and transactions. -/
theorem may_advisory {a : BitVec 64} {held : List Lock}
    (hheld : (lockOrder P).Below c held 4) :
    (lockOrder P).May c db held (.advisory a) where
  known := Or.inr (Or.inr fun _ hown => hown)
  guarded := fun _ ⟨_, _, e, _⟩ => (by cases e)
  ordered := Or.inr (Or.inr hheld)

/-- A row of an identity, under the lock of the identity. -/
theorem may_identity {t : Table} {u : Uuid} {held : List Lock} (ht : ¬t.drawn)
    (hheld : (lockOrder P).Below c held (tableRank t)) :
    (lockOrder P).May c db held (.row t u) where
  known := Or.inr (Or.inr fun _ hown => ht hown.1)
  guarded := by
    rintro g ⟨f, _, e, _⟩
    refine absurd e (row_ne ?_)
    rintro rfl
    exact ht ⟨by decide, by decide⟩
  ordered := Or.inr (Or.inr hheld)

/-- Another lock held. -/
theorem below_row {t : Table} {u : Uuid} {held : List Lock} {n : Nat} (ht : tableRank t < n)
    (h : (lockOrder P).Below c held n) : (lockOrder P).Below c (.row t u :: held) n :=
  below_cons (Or.inr ht) h

theorem below_advisory {a : BitVec 64} {held : List Lock} {n : Nat} (hn : 4 < n)
    (h : (lockOrder P).Below c held n) : (lockOrder P).Below c (.advisory a :: held) n :=
  below_cons (Or.inr hn) h

/-! ## 3. Statements -/

/-- `SELECT … FOR UPDATE` of a stored row. -/
theorem orderly_lockRow {t : Table} {p : Row t → Bool} {r : ρ} {k : Row t → Tx schema ρ}
    (ht : t ≠ .refreshFamilies) (hview : (l.now.eff db).rows t = db.rows t)
    (hheld : (lockOrder P).Below c l.now.held (tableRank t))
    (h : ∀ row ∈ db.rows t, p row = true →
      (k row).Orderly (lockOrder P) c db (l.lock [.row t (Row.key row)])) :
    (lockOr t p r k).Orderly (lockOrder P) c db l := by
  refine orderly_lockOr fun row hrow hp => ?_
  rw [hview] at hrow
  exact ⟨Or.inr (may_row ht hrow hheld), h row hrow hp⟩

/-- `SELECT … FOR UPDATE` of the family of a locked session. -/
theorem orderly_lockFamily {p : FamilyRow → Bool} {r : ρ} {k : FamilyRow → Tx schema ρ}
    (hdb : (layout P).Integrity db)
    (hview : (l.now.eff db).rows .refreshFamilies = db.rows .refreshFamilies)
    (hheld : ∀ f ∈ db.rows .refreshFamilies, p f = true →
      .row .providerSessions (FamilyRow.sessionId f) ∈ l.now.held)
    (h : ∀ f ∈ db.rows .refreshFamilies, p f = true →
      (k f).Orderly (lockOrder P) c db (l.lock [.row .refreshFamilies (FamilyRow.id f)])) :
    (lockOr .refreshFamilies p r k).Orderly (lockOrder P) c db l := by
  refine orderly_lockOr fun f hf hp => ?_
  rw [hview] at hf
  exact ⟨Or.inr (may_family hdb hf (hheld f hf hp)), h f hf hp⟩

/-- An `UPDATE` of a locked row, by its id. -/
theorem orderly_updateLocked {t : Table} {u : Uuid} {p : Row t → Bool} {set : Row t → Row t}
    {k : List (Row t) → Tx schema ρ} (hp : ∀ r, p r = true → Row.key r = u)
    (hheld : .row t u ∈ l.now.held)
    (h : ∀ rows l', l.now.held ⊆ l'.now.held → (∀ v, v ≠ t →
      (l'.now.eff db).rows v = (l.now.eff db).rows v) → (k rows).Orderly (lockOrder P) c db l') :
    (update t p set k).Orderly (lockOrder P) c db l := by
  refine orderly_update_held (fun row _ hrow => ?_) (h _ _ ?_ fun v hv => ?_)
  · rw [show schema.key row = u from hp row hrow]
    exact hheld
  · rw [held_updated]
    exact List.subset_append_right ..
  · exact updated_rows_ne _ _ _ db hv

/-- An insert of a row with an id of the call's own. -/
theorem orderly_insertDrawn {t : Table} {row : Db → Row t} {k : Row t → Tx schema ρ}
    (hgood : (contract P).Good c db) (ht : t.drawn) (i : Fin 2)
    (hkey : ∀ d, Row.key (row d) = c.tape.uuid i)
    (h : ∀ r l', l.now.held ⊆ l'.now.held → l'.saved = l.saved →
      (k r).Orderly (lockOrder P) c db l') :
    (insertWith t row k).Orderly (lockOrder P) c db l := by
  refine orderly_insert ?_ (h _ _ (List.subset_cons_self ..) rfl)
  rw [show schema.key (row (l.now.eff db)) = c.tape.uuid i from hkey _]
  exact may_drawn hgood ht i

/-- The session of a call is the first thing it locks. -/
theorem orderly_lockSession {ε : Type} (id : Uuid) {invalid : ε}
    {k : SessionRow → Tx schema (Except ε α)}
    (h : ∀ s, s.id = id →
      (k s).Orderly (lockOrder P) c db (Local.init.lock [.row .providerSessions id])) :
    (lockSession id invalid k).Orderly (lockOrder P) c db .init := by
  refine orderly_lockRow (t := .providerSessions) (by decide) rfl below_nil fun s _ hs => ?_
  have hid : s.id = id := of_decide_eq_true hs
  rw [← hid] at h
  exact h s rfl

/-- The families of a locked session, in any order. -/
theorem orderly_revokeFamilies {session : Uuid} {set : FamilyRow → FamilyRow}
    {scan : List Uuid → List Uuid} {k : Unit → Tx schema ρ} (hdb : (layout P).Integrity db)
    (hset : ∀ f, ∃ now, set f = FamilyRow.revoke now f)
    (hview : (l.now.eff db).rows .refreshFamilies = db.rows .refreshFamilies)
    (hheld : .row .providerSessions session ∈ l.now.held)
    (h : ∀ l', (k ()).Orderly (lockOrder P) c db l') :
    (updateEach .refreshFamilies (fun f => f.sessionId = session) set scan k).Orderly
      (lockOrder P) c db l := by
  refine orderly_updateEach (t := Table.refreshFamilies) (fun f => ?_) (fun f => ?_)
    (fun held hsub f hf hp => ?_) h
  · obtain ⟨now, e⟩ := hset f
    rw [e]
    rfl
  · obtain ⟨now, e⟩ := hset f
    rw [e]
    rfl
  · rw [hview] at hf
    have hsession : f.sessionId = session := of_decide_eq_true hp
    refine may_family hdb hf ?_
    rw [hsession]
    exact hsub hheld

/-! ## 4. Credentials -/

section Credentials

variable (hgood : (contract P).Good c db)
include hgood

theorem orderly_createProviderSession (user : AuthenticatedUser) (lifetime : Duration) :
    (createProviderSession P c.tape user lifetime).tx.Orderly (lockOrder P) c db .init :=
  orderly_checked fun _ => orderly_insertDrawn hgood (by decide) 0 (fun _ => rfl)
    fun _ _ _ _ => orderly_commit ..

omit hgood in
theorem orderly_findProviderSession (raw : String) :
    (findProviderSession P c.tape raw).tx.Orderly (lockOrder P) c db .init :=
  orderly_selectOr fun _ _ => orderly_commit ..

/-- A code of the call's own. -/
theorem orderly_insertAuthorizationCode {session : Uuid} {grant : ValidatedAuthorizationGrant}
    {nonce : Option String} {upstream : Option Time} {seconds : Nat} {now : Time}
    {k : String → Tx schema ρ}
    (h : ∀ l', l.now.held ⊆ l'.now.held → (k (c.tape.secret 0)).Orderly (lockOrder P) c db l') :
    (insertAuthorizationCode P c.tape session grant nonce upstream seconds now k).Orderly
      (lockOrder P) c db l :=
  orderly_insertDrawn hgood (by decide) 0 (fun _ => rfl) fun _ l' hheld _ => h l' hheld

theorem orderly_issueAuthorizationCode (session : ProviderSession)
    (grant : ValidatedAuthorizationGrant) (lifetime : Duration) :
    (issueAuthorizationCode P c.tape session grant lifetime).tx.Orderly (lockOrder P) c db
      .init := by
  refine orderly_checked fun seconds => orderly_lockSession _ fun s hs => ?_
  refine orderly_selectOr fun _ _ => orderly_ensure fun _ => orderly_selectOr fun _ _ => ?_
  exact orderly_checked fun _ => orderly_insertAuthorizationCode hgood fun _ _ =>
    orderly_checked fun _ => orderly_commit ..

/-- The locks of an exchange: session, code, the families of the code; a new family and its
    token are the call's own. -/
theorem orderly_exchangeCodeBound (i : Nat) (raw clientId redirectUri resource verifier : String)
    (registry : Option ClientRegistry) :
    (exchangeCodeBound P c.tape i raw clientId redirectUri resource verifier
      registry).tx.Orderly (lockOrder P) c db .init := by
  refine orderly_selectOr fun code _ => orderly_ensure fun _ => ?_
  refine orderly_lockSession code.sessionId fun session _ => ?_
  refine orderly_lockRow (t := .authorizationCodes) (by decide) rfl
    (below_row (by decide) below_nil) fun locked _ hlocked => ?_
  have hid : locked.id = code.id := of_decide_eq_true hlocked
  refine orderly_lockOr (S := schema) (t := .authorizationCodes) fun current hcurrent hp => ?_
  have hid' : current.id = code.id := of_decide_eq_true hp
  refine ⟨Or.inl ?_, orderly_ensure fun hsame => orderly_checked fun _ => orderly_checked fun _ =>
    orderly_checked fun _ => orderly_ite (fun _ => ?_) fun _ => ?_⟩
  · rw [show schema.key current = locked.id from hid'.trans hid.symm]
    exact List.mem_cons_self
  · -- a replay: one family at most, under the session of its code
    have hsource : ∀ f ∈ db.rows .refreshFamilies, FamilyRow.sourceCodeId f = current.id →
        FamilyRow.sessionId f = code.sessionId := by
      intro f hf hfs
      obtain ⟨src, hsrc, hdesc, _⟩ := (hgood.inv.ok .refreshFamilies f hf).code
      have e : src = current := same_key (t := .authorizationCodes) hgood.inv hsrc hcurrent
        (hdesc.source.symm.trans hfs)
      rw [hdesc.session, e, hsame.1]
    refine orderly_update (S := schema) (t := .refreshFamilies) (fun f hf hfp => Or.inr ?_)
      (fun f hf f' hf' hfp hfp' => ?_) ?_
    · refine may_family hgood.inv hf ?_
      rw [hsource f hf (of_decide_eq_true hfp)]
      exact List.mem_cons_of_mem _ (List.mem_cons_of_mem _ List.mem_cons_self)
    · have hname : ∀ f : FamilyRow, decide (f.sourceCodeId = current.id) = true →
          .source current.id ∈ Row.names (t := .refreshFamilies) f := fun f hf => by
        rw [← of_decide_eq_true hf]
        exact List.mem_cons_of_mem _ List.mem_cons_self
      rw [hgood.inv.unique (t := Table.refreshFamilies) hf hf' (hname f hfp) (hname f' hfp')]
    · exact orderly_checked fun _ => orderly_commit ..
  · refine orderly_ensure fun _ => orderly_updateLocked (t := .authorizationCodes)
      (u := current.id) (fun r hr => of_decide_eq_true hr) List.mem_cons_self fun _ l' _ _ => ?_
    refine orderly_ite (fun _ => ?_) fun _ => orderly_checked fun _ => orderly_commit ..
    exact orderly_insertDrawn hgood (by decide) 0 (fun _ => rfl) fun _ _ _ _ =>
      orderly_insertDrawn hgood (by decide) 1 (fun _ => rfl) fun _ _ _ _ =>
        orderly_checked fun _ => orderly_commit ..

theorem orderly_exchangeCodeRequest (raw clientId redirectUri : String)
    (resource : Option String) (verifier : String) (scopes : Option (List String))
    (registry : ClientRegistry) :
    (exchangeCodeRequest P c.tape raw clientId redirectUri resource verifier scopes
      registry).tx.Orderly (lockOrder P) c db .init :=
  orderly_selectOr fun stored _ => orderly_ensure fun _ => orderly_checked fun _ =>
    orderly_exchangeCodeBound hgood 1 raw clientId redirectUri stored.resource verifier
      (some registry)

/-- The family of a token, under the session it was found with. -/
theorem orderly_lockFound {h : Digest} {m : MemberRow} {f : FamilyRow} {r : ρ}
    {k : FamilyRow → Tx schema ρ} (hfound : findMember db h = some (m, f))
    (hview : (l.now.eff db).rows .refreshFamilies = db.rows .refreshFamilies)
    (hheld : .row .providerSessions f.sessionId ∈ l.now.held)
    (hk : (k f).Orderly (lockOrder P) c db (l.lock [.row .refreshFamilies m.familyId])) :
    (lockOr .refreshFamilies (fun f => f.id = m.familyId) r k).Orderly (lockOrder P) c db l := by
  obtain ⟨_, _, hf, hid⟩ := findMember_mem hfound
  have hsame : ∀ f' ∈ db.rows .refreshFamilies, decide (FamilyRow.id f' = m.familyId) = true →
      f' = f := fun f' hf' hp =>
    same_key (t := .refreshFamilies) hgood.inv hf' hf ((of_decide_eq_true hp).trans hid.symm)
  refine orderly_lockFamily hgood.inv hview (fun f' hf' hp => ?_) fun f' hf' hp => ?_
  · rw [hsame f' hf' hp]
    exact hheld
  · rw [hsame f' hf' hp, hid]
    exact hk

theorem orderly_rotateRefreshBound (raw clientId resource : String)
    (registry : Option ClientRegistry) :
    (rotateRefreshBound P c.tape raw clientId resource registry).tx.Orderly (lockOrder P) c db
      .init := by
  refine orderly_selectOr fun lookup hlookup => ?_
  obtain ⟨⟨m, f⟩, hfound, rfl⟩ := Option.map_eq_some_iff.mp hlookup
  obtain ⟨_, _, _, hid⟩ := findMember_mem hfound
  refine orderly_lockSession f.sessionId fun session _ => ?_
  refine orderly_lockFound hgood hfound rfl List.mem_cons_self ?_
  refine orderly_lockRow (t := .refreshTokenMembers) (by decide) rfl
    (below_row (by decide) (below_row (by decide) below_nil)) fun member _ hmember => ?_
  have hmid : member.id = m.id := of_decide_eq_true hmember
  refine orderly_ensure fun _ => orderly_checked fun _ => orderly_ensure fun _ =>
    orderly_checked fun _ => orderly_ite (fun _ => ?_) fun _ => ?_
  · exact orderly_updateLocked (t := .refreshFamilies) (u := m.familyId)
      (fun r hr => of_decide_eq_true hr) (List.mem_cons_of_mem _ List.mem_cons_self)
      fun _ _ _ _ => orderly_checked fun _ => orderly_commit ..
  · refine orderly_ensure fun _ => orderly_insertDrawn hgood (by decide) 0 (fun _ => rfl)
      fun _ l' hheld _ => orderly_selectOr fun _ _ => ?_
    refine orderly_updateLocked (t := .refreshTokenMembers) (u := m.id)
      (fun r hr => of_decide_eq_true hr) (hheld ?_) fun _ _ _ _ =>
        orderly_checked fun _ => orderly_commit ..
    rw [← hmid]
    exact List.mem_cons_self

theorem orderly_rotateRefreshRequest (raw clientId : String) (resource : Option String)
    (scopes : Option (List String)) (registry : ClientRegistry) :
    (rotateRefreshRequest P c.tape raw clientId resource scopes registry).tx.Orderly
      (lockOrder P) c db .init :=
  orderly_selectOr fun stored _ => orderly_ensure fun _ =>
    orderly_rotateRefreshBound hgood raw clientId stored.2 (some registry)

theorem orderly_revokeRefresh (raw clientId : String) :
    (revokeRefresh P c.tape raw clientId).tx.Orderly (lockOrder P) c db .init := by
  refine orderly_select ?_
  beta_reduce
  generalize hq : Option.filter (fun lookup : RevocationLookup => decide (lookup.clientId =
    clientId)) _ = found
  cases found with
  | none => exact orderly_commit ..
  | some lookup =>
      obtain ⟨⟨m, f⟩, hfound, rfl⟩ := Option.map_eq_some_iff.mp (Option.filter_eq_some_iff.mp hq).1
      refine orderly_lockSession f.sessionId fun session _ => ?_
      refine orderly_lockFound hgood hfound rfl List.mem_cons_self ?_
      exact orderly_updateLocked (t := .refreshFamilies) (u := m.familyId)
        (fun r hr => of_decide_eq_true hr) List.mem_cons_self fun _ _ _ _ => orderly_commit ..

theorem orderly_logout (session : ProviderSession) :
    (logout c.tape session).tx.Orderly (lockOrder P) c db .init := by
  refine orderly_lockSession session.id fun s hs => ?_
  refine orderly_updateLocked (t := .providerSessions) (u := session.id)
    (fun r hr => of_decide_eq_true hr) List.mem_cons_self fun _ l' hheld hrows => ?_
  exact orderly_revokeFamilies hgood.inv (fun f => ⟨_, rfl⟩) (hrows .refreshFamilies (by decide))
    (hheld List.mem_cons_self) fun _ => orderly_commit ..

/-! ## 5. Logout -/

theorem orderly_insertLogout (session : ProviderSession) (clientId redirect : String)
    (state : Option String) :
    (insertLogout P c.tape session clientId redirect state).tx.Orderly (lockOrder P) c db
      .init :=
  orderly_lockSession _ fun _ _ => orderly_ensure fun _ =>
    orderly_insertDrawn hgood (by decide) 0 (fun _ => rfl) fun _ _ _ _ => orderly_commit ..

theorem orderly_beginLogout (session : ProviderSession) (clientId redirect : String)
    (state : Option String) (registry : ClientRegistry) :
    (beginLogout P c.tape session clientId redirect state registry).tx.Orderly (lockOrder P) c
      db .init := by
  show (Sql.ensure (registry.validPostLogoutRedirect clientId redirect) _ fun _ =>
    (insertLogout P c.tape session clientId redirect state).tx).Orderly (lockOrder P) c db _
  exact orderly_ensure fun _ => orderly_insertLogout hgood session clientId redirect state

theorem orderly_finishInner (session : ProviderSession) (challenge : LogoutChallenge)
    (registry : ClientRegistry) (hint : Option IdClaims) :
    (finishInner P c.tape session challenge registry hint).tx.Orderly (lockOrder P) c db
      .init := by
  refine orderly_lockSession session.id fun s hs => ?_
  refine orderly_lockRow (t := .logoutChallenges) (by decide) rfl
    (below_row (by decide) below_nil) fun row _ hrow => ?_
  simp only [Bool.and_eq_true, decide_eq_true_eq] at hrow
  refine orderly_ensure fun _ => orderly_ensure fun _ => orderly_ensure fun _ => ?_
  have hid : row.id = challenge.id := hrow.1.1
  refine orderly_updateLocked (t := .logoutChallenges) (u := row.id)
    (fun r hr => (of_decide_eq_true hr).trans hid.symm) List.mem_cons_self
    fun _ l' hheld hrows => ?_
  refine orderly_updateLocked (t := .providerSessions) (u := session.id)
    (fun r hr => of_decide_eq_true hr)
    (hheld (List.mem_cons_of_mem _ List.mem_cons_self)) fun _ l'' hheld' hrows' => ?_
  refine orderly_revokeFamilies hgood.inv (fun f => ⟨_, rfl⟩) ?_
    (hheld' (hheld (List.mem_cons_of_mem _ List.mem_cons_self))) fun _ => orderly_commit ..
  rw [hrows' .refreshFamilies (by decide), hrows .refreshFamilies (by decide)]
  rfl

end Credentials

/-! ## 6. Browser transactions -/

section Browser

/-- `lock_consent`, after the session. -/
theorem orderly_lockConsent {session id : Uuid} {handle : ConsentHandle}
    {k : BrowserRow → Tx schema (Except BrowserError α)}
    (h : ∀ row, row.id = handle.transactionId → ∀ l', .row .browserAuthorizations row.id ∈
      l'.now.held → (k row).Orderly (lockOrder P) c db l') :
    (lockConsent P handle session k).Orderly (lockOrder P) c db
      (Local.init.lock [.row .providerSessions id]) := by
  refine orderly_lockRow (t := .browserAuthorizations) (by decide) rfl
    (below_row (by decide) below_nil) fun row _ hrow => h row ?_ _ List.mem_cons_self
  simp only [Bool.and_eq_true, decide_eq_true_eq] at hrow
  exact hrow.1.1.1

/-- The transaction that is locked, by its id. -/
theorem orderly_moveLocked {row : BrowserRow} {id : Uuid} {set : BrowserRow → BrowserRow}
    {k : List BrowserRow → Tx schema ρ} (hid : row.id = id)
    (hheld : .row .browserAuthorizations row.id ∈ l.now.held)
    (h : ∀ rows l', (k rows).Orderly (lockOrder P) c db l') :
    (update .browserAuthorizations (fun r => r.id = id) set k).Orderly (lockOrder P) c db l :=
  orderly_updateLocked (t := .browserAuthorizations) (u := row.id)
    (fun _ hr => (of_decide_eq_true hr).trans hid.symm) hheld fun rows l' _ _ => h rows l'

theorem orderly_transactionClientId (id : Uuid) :
    (transactionClientId id).tx.Orderly (lockOrder P) c db .init :=
  orderly_selectOr fun _ _ => orderly_commit ..

theorem orderly_callbackClientId (claim : String) :
    (callbackClientId P claim).tx.Orderly (lockOrder P) c db .init :=
  orderly_selectOr fun _ _ => orderly_commit ..

theorem orderly_sessionUpstreamAuthTime (session : ProviderSession) :
    (sessionUpstreamAuthTime c.tape session).tx.Orderly (lockOrder P) c db .init :=
  orderly_lockSession _ fun _ _ => orderly_ensure fun _ => orderly_commit ..

theorem orderly_cancelGoogle (transactionId : Uuid) (state binding : String)
    (registry : Option ClientRegistry) :
    (cancelGoogle P c.tape transactionId state binding registry).tx.Orderly (lockOrder P) c db
      .init := by
  refine orderly_lockRow (t := .browserAuthorizations) (by decide) rfl below_nil
    fun row _ hrow => orderly_checked fun _ => ?_
  simp only [Bool.and_eq_true, decide_eq_true_eq] at hrow
  exact orderly_moveLocked hrow.1.1.1 List.mem_cons_self fun _ _ =>
    orderly_checked fun _ => orderly_commit ..

theorem orderly_claimCallback (state binding : String) :
    (claimCallback P c.tape state binding).tx.Orderly (lockOrder P) c db .init := by
  refine orderly_lockRow (t := .browserAuthorizations) (by decide) rfl below_nil
    fun row _ _ => orderly_checked fun _ => orderly_checked fun _ => ?_
  exact orderly_ite
    (fun _ => orderly_moveLocked rfl List.mem_cons_self fun _ _ => orderly_commit ..)
    fun _ => orderly_moveLocked rfl List.mem_cons_self fun _ _ => orderly_commit ..

theorem orderly_consentView (session : ProviderSession) (handle : ConsentHandle)
    (registry : ClientRegistry) :
    (consentView P c.tape session handle registry).tx.Orderly (lockOrder P) c db .init :=
  orderly_lockSession _ fun _ _ => orderly_lockConsent fun _ _ _ _ => orderly_ensure fun _ =>
    orderly_checked fun _ => orderly_checked fun _ => orderly_select <|
      orderly_checked fun _ => orderly_commit ..

theorem orderly_deny (session : ProviderSession) (handle : ConsentHandle)
    (registry : Option ClientRegistry) :
    (deny P c.tape session handle registry).tx.Orderly (lockOrder P) c db .init :=
  orderly_lockSession _ fun _ _ => orderly_lockConsent fun _ hid _ hheld => orderly_ensure fun _ =>
    orderly_checked fun _ => orderly_moveLocked hid hheld fun _ _ =>
      orderly_checked fun _ => orderly_commit ..

/-- An `UPDATE` of the transaction that has a name. -/
theorem orderly_updateNamed {n : Name} {p : BrowserRow → Bool} {set : BrowserRow → BrowserRow}
    {k : List BrowserRow → Tx schema ρ} (hdb : (layout P).Integrity db)
    (hp : ∀ r, p r = true → n ∈ Row.names (t := .browserAuthorizations) r)
    (h : ∀ rows l', (k rows).Orderly (lockOrder P) c db l') :
    (update .browserAuthorizations p set k).Orderly (lockOrder P) c db .init := by
  refine orderly_update (S := schema) (t := .browserAuthorizations)
    (fun row hrow _ => Or.inr (may_row (by decide) hrow below_nil))
    (fun row hrow row' hrow' hq hq' => ?_) (h _ _)
  rw [hdb.unique (t := Table.browserAuthorizations) hrow hrow' (hp row hq) (hp row' hq')]

variable (hgood : (contract P).Good c db)
include hgood

theorem orderly_beginGoogle (pending : PendingAuthorizationGrant)
    (downstreamState oidcNonce : Option String) (allow : Bool) :
    (beginGoogle P c.tape pending downstreamState oidcNonce allow).tx.Orderly (lockOrder P) c
      db .init :=
  orderly_checked fun _ => orderly_insertDrawn hgood (by decide) 0 (fun _ => rfl)
    fun _ _ _ _ => orderly_checked fun _ => orderly_commit ..

theorem orderly_startGoogle (transactionId : Uuid) (state binding : String) :
    (startGoogle P c.tape transactionId state binding).tx.Orderly (lockOrder P) c db .init := by
  refine orderly_updateNamed (n := .id transactionId) hgood.inv (fun r hr => ?_) fun rows l' => ?_
  · simp only [Bool.and_eq_true, decide_eq_true_eq] at hr
    rw [← hr.1.1.1]
    exact List.mem_cons_self
  · cases rows with
    | nil => exact orderly_commit ..
    | cons row rows => exact orderly_commit ..

theorem orderly_beginAuthenticated (session : ProviderSession)
    (pending : PendingAuthorizationGrant) (downstreamState oidcNonce : Option String)
    (allow : Bool) :
    (beginAuthenticated P c.tape session pending downstreamState oidcNonce allow).tx.Orderly
      (lockOrder P) c db .init :=
  orderly_lockSession _ fun _ _ => orderly_ensure fun _ => orderly_checked fun _ =>
    orderly_insertDrawn hgood (by decide) 0 (fun _ => rfl) fun _ _ _ _ =>
      orderly_checked fun _ => orderly_commit ..

theorem orderly_failCallback (claim : String) :
    (failCallback P claim).tx.Orderly (lockOrder P) c db .init :=
  orderly_updateNamed (n := .hash (secretHash P claim)) hgood.inv (fun _ => claimedBy_name)
    fun _ _ => orderly_commit ..

theorem orderly_denyCallback (claim : String) (registry : ClientRegistry) :
    (denyCallback P c.tape claim registry).tx.Orderly (lockOrder P) c db .init := by
  refine orderly_lockRow (t := .browserAuthorizations) (by decide) rfl below_nil
    fun row hrow hclaim => orderly_ensure fun _ => orderly_checked fun _ => ?_
  have hname : ∀ r : BrowserRow, decide (r.claimHash = some (secretHash P claim)) = true →
      .hash (secretHash P claim) ∈ Row.names (t := .browserAuthorizations) r := fun r hr =>
    BrowserRow.mem_names.mpr (Or.inr ⟨_, Or.inr (of_decide_eq_true hr), rfl⟩)
  refine orderly_update_held (S := schema) (t := .browserAuthorizations)
    (fun r hr hp => ?_) (orderly_checked fun _ => orderly_commit ..)
  rw [hgood.inv.unique (t := Table.browserAuthorizations) hr hrow (hname r hp)
    (claimedBy_name hclaim)]
  exact List.mem_cons_self

/-- The code of a consented transaction, and the end of the transaction. -/
theorem orderly_issueConsented {session : ProviderSession} {handle : ConsentHandle}
    {s : SessionRow} {row : BrowserRow} {grant : ValidatedAuthorizationGrant}
    {k : String → Tx schema ρ} (hid : row.id = handle.transactionId)
    (hheld : .row .browserAuthorizations row.id ∈ l.now.held)
    (h : ∀ l', (k (c.tape.secret 0)).Orderly (lockOrder P) c db l') :
    (issueConsented P c.tape session handle s row grant k).Orderly (lockOrder P) c db l :=
  orderly_insertAuthorizationCode hgood fun _ hsub =>
    orderly_moveLocked hid (hsub hheld) fun _ l' => h l'

theorem orderly_approve (session : ProviderSession) (handle : ConsentHandle)
    (registry : ClientRegistry) :
    (approve P c.tape session handle registry).tx.Orderly (lockOrder P) c db .init :=
  orderly_lockSession _ fun _ _ => orderly_lockConsent fun _ hid _ hheld => orderly_ensure fun _ =>
    orderly_checked fun _ => orderly_checked fun _ => orderly_issueConsented hgood hid hheld
      fun _ => orderly_checked fun _ => orderly_commit ..

theorem orderly_approvePreAuthorized (session : ProviderSession) (handle : ConsentHandle)
    (registry : ClientRegistry) :
    (approvePreAuthorized P c.tape session handle registry).tx.Orderly (lockOrder P) c db
      .init :=
  orderly_lockSession _ fun _ _ => orderly_lockConsent fun _ hid _ hheld => orderly_ensure fun _ =>
    orderly_checked fun _ => orderly_ensure fun _ => orderly_checked fun _ =>
      orderly_issueConsented hgood hid hheld fun _ => orderly_checked fun _ =>
        orderly_ensure fun _ => orderly_ensure fun _ => orderly_commit ..

/-! ## 7. Identities -/

/-- A user is found, or made of rows of the call's own; the identity comes after its lock. -/
theorem orderly_findOrCreateUser {issuer subject : String} {k : Uuid → Tx schema ρ}
    (hheld : (lockOrder P).Below c l.now.held 5)
    (h : ∀ user l', (lockOrder P).Below c l'.now.held 6 → l.now.held ⊆ l'.now.held →
      l'.saved = l.saved → (k user).Orderly (lockOrder P) c db l') :
    (findOrCreateUser c.tape issuer subject k).Orderly (lockOrder P) c db l := by
  refine orderly_select ?_
  cases findIdentity (l.now.eff db) issuer subject with
  | some user => exact h user l (below_mono (by decide) hheld) (List.Subset.refl _) rfl
  | none =>
      have hown : (lockOrder P).Below c (.row .users (c.tape.uuid 1) :: l.now.held) 5 :=
        below_cons (Or.inl ⟨by decide, 1, rfl⟩) hheld
      refine orderly_insert (S := schema) (t := .users) (may_drawn hgood (by decide) 1) ?_
      refine orderly_insert (S := schema) (t := .externalIdentities)
        (may_identity (by decide) hown) (h _ _ ?_ ?_ rfl)
      · exact below_row (by decide) (below_mono (by decide) hown)
      · exact List.Subset.trans (List.subset_cons_self ..) (List.subset_cons_self ..)

theorem orderly_findOrCreateExternalIdentity (issuer subject : String) :
    (findOrCreateExternalIdentity P c.tape issuer subject).tx.Orderly (lockOrder P) c db .init :=
  orderly_advisoryLock (may_advisory below_nil) <|
    orderly_findOrCreateUser hgood (below_advisory (by decide) below_nil)
      fun _ _ _ _ _ => orderly_commit ..

theorem orderly_upsertVerifiedGoogleIdentity {identity : VerifiedGoogleIdentity} {now : Time}
    {k : Uuid → Tx schema ρ} (hheld : (lockOrder P).Below c l.now.held 5)
    (h : ∀ user l', l.now.held ⊆ l'.now.held → l'.saved = l.saved →
      (k user).Orderly (lockOrder P) c db l') :
    (upsertVerifiedGoogleIdentity c.tape identity now k).Orderly (lockOrder P) c db l := by
  refine orderly_findOrCreateUser hgood hheld fun user l' hbelow hsub hsaved => ?_
  refine orderly_upsert (S := schema) (t := .userProfiles) (may_identity (by decide) hbelow) ?_
  exact h user _ (List.Subset.trans hsub (List.subset_cons_self ..)) hsaved

theorem orderly_findOrCreateVerifiedGoogleIdentity (identity : VerifiedGoogleIdentity) :
    (findOrCreateVerifiedGoogleIdentity P c.tape identity).tx.Orderly (lockOrder P) c db .init :=
  orderly_advisoryLock (may_advisory below_nil) <|
    orderly_upsertVerifiedGoogleIdentity hgood (below_advisory (by decide) below_nil)
      fun _ _ _ _ => orderly_commit ..

omit hgood in
theorem orderly_userProfile (user : Uuid) :
    (userProfile user).tx.Orderly (lockOrder P) c db .init :=
  orderly_select <| orderly_commit ..

omit hgood in
/-- A check inside the savepoint gives up what was locked since. -/
theorem orderly_checkedStaged {ε β : Type} {x : Except ε α} {k : α → Tx schema (Except ε β)}
    (hsaved : (l.saved.headD l.now).held ⊆ l.now.held)
    (h : ∀ a, (k a).Orderly (lockOrder P) c db l) :
    (checkedStaged x k).Orderly (lockOrder P) c db l := by
  cases x with
  | ok a => exact h a
  | error e => exact orderly_rollbackToSavepoint hsaved <| orderly_abort ..

/-- **A login** locks its transaction, the identity and the profile, and then only rows of its
    own and the transaction again. -/
theorem orderly_completeCallback (claim : String) (identity : VerifiedGoogleIdentity)
    (lifetime : Duration) (registry : Option ClientRegistry) :
    (completeCallback P c.tape claim identity lifetime registry).tx.Orderly (lockOrder P) c db
      .init := by
  refine orderly_checked fun seconds => ?_
  refine orderly_lockRow (t := .browserAuthorizations) (by decide) rfl below_nil
    fun row hrow hclaim => ?_
  refine orderly_lockOr (S := schema) (t := .browserAuthorizations) fun policyRow _ hpolicy => ?_
  have hpid : policyRow.id = row.id := of_decide_eq_true hpolicy
  have hrowheld : .row .browserAuthorizations (BrowserRow.id row) ∈
      (.row .browserAuthorizations (BrowserRow.id policyRow) ::
        [.row .browserAuthorizations (BrowserRow.id row)] : List Lock) :=
    List.mem_cons_of_mem _ List.mem_cons_self
  refine ⟨Or.inl ?_, orderly_checked fun _ => orderly_savepoint ?_⟩
  · rw [show schema.key policyRow = row.id from hpid]
    exact List.mem_cons_self
  refine orderly_advisoryLock (may_advisory
    (below_row (by decide) (below_row (by decide) below_nil))) ?_
  refine orderly_checkedStaged (List.subset_cons_self ..) fun _ => ?_
  refine orderly_upsertVerifiedGoogleIdentity hgood (below_advisory (by decide)
    (below_row (by decide) (below_row (by decide) below_nil))) fun user l' hsub hsaved => ?_
  refine orderly_insertDrawn hgood (t := .providerSessions) (by decide) 0 (fun _ => rfl)
    fun session l'' hsub' hsaved' => ?_
  have hback : (l''.saved.headD l''.now).held ⊆ l''.now.held := by
    rw [hsaved', hsaved]
    exact fun k hk => hsub' (hsub (List.mem_cons_of_mem _ hk))
  refine orderly_ite (fun _ => ?_) fun _ => ?_
  · refine orderly_rollbackToSavepoint hback (orderly_moveLocked rfl ?_ fun _ _ =>
      orderly_commit ..)
    show _ ∈ (l''.saved.headD l''.now).held
    rw [hsaved', hsaved]
    exact hrowheld
  · refine orderly_checkedStaged hback fun _ => orderly_releaseSavepoint ?_
    refine orderly_updateLocked (t := .browserAuthorizations) (u := row.id) (fun r hr => ?_)
      (hsub' (hsub (List.mem_cons_of_mem _ hrowheld))) fun _ _ _ _ =>
        orderly_ensure fun _ => orderly_checked fun _ => orderly_commit ..
    simp only [Bool.and_eq_true, decide_eq_true_eq] at hr
    exact hr.1

end Browser

/-! ## 8. Every call -/

/-- **Every call of the stores keeps to the order.** -/
theorem program_orderly (P : Platform) : (lockOrder P).Governs (program P) := by
  intro c db hgood
  unfold program
  cases c.call with
  | createProviderSession user lifetime =>
      exact (orderly_map _ _).mpr (orderly_createProviderSession hgood user lifetime)
  | findProviderSession raw => exact (orderly_map _ _).mpr (orderly_findProviderSession raw)
  | issueAuthorizationCode session grant lifetime =>
      exact (orderly_map _ _).mpr (orderly_issueAuthorizationCode hgood session grant lifetime)
  | exchangeCode raw clientId redirectUri resource verifier =>
      exact (orderly_map _ _).mpr
        (orderly_exchangeCodeBound hgood 0 raw clientId redirectUri resource verifier none)
  | exchangeCodeRequest raw clientId redirectUri resource verifier scopes registry =>
      exact (orderly_map _ _).mpr (orderly_exchangeCodeRequest hgood raw clientId redirectUri
        resource verifier scopes registry)
  | rotateRefresh raw clientId resource =>
      exact (orderly_map _ _).mpr (orderly_rotateRefreshBound hgood raw clientId resource none)
  | rotateRefreshRequest raw clientId resource scopes registry =>
      exact (orderly_map _ _).mpr
        (orderly_rotateRefreshRequest hgood raw clientId resource scopes registry)
  | revokeRefresh raw clientId =>
      exact (orderly_map _ _).mpr (orderly_revokeRefresh hgood raw clientId)
  | logout session => exact (orderly_map _ _).mpr (orderly_logout hgood session)
  | beginLogout session clientId redirect state registry =>
      exact (orderly_map _ _).mpr
        (orderly_beginLogout hgood session clientId redirect state registry)
  | beginLocal session localUri =>
      exact (orderly_map _ _).mpr (orderly_insertLogout hgood session "" localUri none)
  | finish session challenge registry =>
      exact (orderly_map _ _).mpr ((orderly_map _ _).mpr
        (orderly_finishInner hgood session challenge registry none))
  | finishHint session challenge registry hint =>
      exact (orderly_map _ _).mpr
        (orderly_finishInner hgood session challenge registry (some hint))
  | transactionClientId id => exact (orderly_map _ _).mpr (orderly_transactionClientId id)
  | callbackClientId claim => exact (orderly_map _ _).mpr (orderly_callbackClientId claim)
  | beginGoogle pending downstreamState oidcNonce allow =>
      exact (orderly_map _ _).mpr
        (orderly_beginGoogle hgood pending downstreamState oidcNonce allow)
  | startGoogle transactionId state binding =>
      exact (orderly_map _ _).mpr (orderly_startGoogle hgood transactionId state binding)
  | cancelGoogle transactionId state binding registry =>
      exact (orderly_map _ _).mpr (orderly_cancelGoogle transactionId state binding registry)
  | beginAuthenticated session pending downstreamState oidcNonce allow =>
      exact (orderly_map _ _).mpr
        (orderly_beginAuthenticated hgood session pending downstreamState oidcNonce allow)
  | sessionUpstreamAuthTime session =>
      exact (orderly_map _ _).mpr (orderly_sessionUpstreamAuthTime session)
  | claimCallback state binding =>
      exact (orderly_map _ _).mpr (orderly_claimCallback state binding)
  | failCallback claim => exact (orderly_map _ _).mpr (orderly_failCallback hgood claim)
  | denyCallback claim registry =>
      exact (orderly_map _ _).mpr (orderly_denyCallback hgood claim registry)
  | completeCallback claim identity lifetime registry =>
      exact (orderly_map _ _).mpr
        (orderly_completeCallback hgood claim identity lifetime registry)
  | approve session handle registry =>
      exact (orderly_map _ _).mpr (orderly_approve hgood session handle registry)
  | approvePreAuthorized session handle registry =>
      exact (orderly_map _ _).mpr (orderly_approvePreAuthorized hgood session handle registry)
  | consentView session handle registry =>
      exact (orderly_map _ _).mpr (orderly_consentView session handle registry)
  | deny session handle registry =>
      exact (orderly_map _ _).mpr (orderly_deny session handle registry)
  | findOrCreateExternalIdentity issuer subject =>
      exact (orderly_map _ _).mpr (orderly_findOrCreateExternalIdentity hgood issuer subject)
  | findOrCreateVerifiedGoogleIdentity identity =>
      exact (orderly_map _ _).mpr (orderly_findOrCreateVerifiedGoogleIdentity hgood identity)
  | userProfile user => exact (orderly_map _ _).mpr (orderly_userProfile user)

variable {M : Machine schema Request Reply}

/-- **No deadlock among the transactions of the stores**: in whatever state any number of
    calls has left the machine, statement by statement, no set of transactions waits for each
    other; and no transaction waits for two locks at once, so a wait has no other way out. -/
theorem store_deadlock_free (h : Reachable P M) :
    (∀ W : Set Nat, ¬M.Deadlock W) ∧
      ∀ i j j' k k', M.Waits i k j → M.Waits i k' j' → k = k' :=
  ⟨no_deadlock (lawful P) (program_orderly P) h,
    fun _ _ _ _ _ => one_lock (lawful P) (program_orderly P) h⟩

namespace Sample

/-- A session, and two calls that log it out. -/
def racingLogouts : List Step :=
  [(.createProviderSession ⟨1, none⟩ ⟨3600, 0⟩, [.session]),
   (.logout ⟨"session", 0, 3600 * second⟩, [.logout]),
   (.logout ⟨"session", 0, 3600 * second⟩, [.last])]

/-- The second logout waits for the session that the first one has locked. -/
theorem logout_waits : ∃ M, Eri.Reachable platform M ∧
    M.Waits 2 (.row .providerSessions 0) 1 := by
  have hpair := requests_pairwise 0 racingLogouts (by decide)
  obtain ⟨hfirst, hrest⟩ := List.pairwise_cons.mp hpair
  -- the first logout starts and locks the session
  have h₁ : Eri.Reachable platform (machine (racingLogouts.take 1)) := reachable (by decide)
  have h₂ := h₁.step (.start _ _ fun th hth => by
    rw [List.mem_singleton.mp hth]
    exact hfirst _ List.mem_cons_self)
  have h₃ := h₂.step (.stmt _ 1 _ _ _ _ rfl fun j c p l hne hj => by
    match j with
    | 0 => cases hj
    | 1 => exact absurd rfl hne
    | j + 2 => cases hj)
  -- and the second one starts
  have h₄ := h₃.step (.start _ _ fun th hth => by
    rcases List.mem_cons.mp hth with rfl | hth
    · exact hfirst _ (List.mem_cons_of_mem _ List.mem_cons_self)
    · rw [List.mem_singleton.mp hth]
      exact (List.pairwise_cons.mp hrest).1 _ List.mem_cons_self)
  exact ⟨_, h₄, ⟨_, _, _, _, _, rfl, List.mem_cons_self⟩, by decide, _, _, _, rfl,
    List.mem_cons_self⟩

end Sample

/-- A transaction waits, and none of them waits for ever. -/
theorem store_deadlock_free_logout : ∃ M : Machine schema Request Reply,
    M.Waits 2 (.row .providerSessions 0) 1 ∧ ∀ W : Set Nat, ¬M.Deadlock W := by
  obtain ⟨M, h, hwaits⟩ := Sample.logout_waits
  exact ⟨M, hwaits, (store_deadlock_free h).1⟩

/-- **The stores never stand still**: while a call runs, the next statement of some call has
    all its locks free. -/
theorem store_progress (h : Reachable P M) {i : Nat} {p : Tx schema Reply}
    (hi : M.At i c (.running p l)) :
    ∃ j c' p' l', M.At j c' (.running p' l') ∧ ∀ β (s : Stmt schema β) next,
      p' = .stmt s next → M.Free j (s.step M.db l').2.now.held := by
  obtain ⟨j, c', p', l', hj, hfree⟩ := someone_moves (lawful P) (program_orderly P) h hi
  refine ⟨j, c', p', l', hj, fun β s next e => ?_⟩
  subst e
  exact free_of_moves hj hfree

end Eri
