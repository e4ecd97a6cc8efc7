/-
  File:      Eri/Identity.lean
  Subject:   Users, the identities they sign in with and the profiles of their logins.

  A user is created with its identity, under the advisory lock of the identity's issuer and
  subject, by one of three calls; two of them also write the profile, with the time of a clock
  that they read under the lock.

  * `IdentityChange`, `identityChange` -- what each call does to the three tables;
  * `reachable_users` -- no user without an identity;
  * `login_held` -- a login takes effect with the lock of its identity;
  * `LastLogin`, `reachable_profiles` -- a profile is the one of the last login of its user;
  * **`identity_mapping`**.
-/
import Eri.Atomicity
import Eri.Sql.Clock

namespace Eri

open Sql

variable {P : Platform} {M M' : Machine schema Request Reply} {c : Request} {t : Tape}
variable {db db' : Db}

/-! ## 1. One call -/

/-- The identity a call finds or creates. -/
def Call.identityOf : Call → Option (String × String)
  | .findOrCreateExternalIdentity issuer subject => some (issuer, subject)
  | .findOrCreateVerifiedGoogleIdentity identity => some (googleIssuer, identity.subject)
  | .completeCallback _ identity _ _ => some (googleIssuer, identity.subject)
  | _ => none

/-- The verified identity of a login. -/
def Call.loginOf : Call → Option VerifiedGoogleIdentity
  | .findOrCreateVerifiedGoogleIdentity identity => some identity
  | .completeCallback _ identity _ _ => some identity
  | _ => none

/-- The user a call returns; a callback returns the user's new session. -/
def Reply.userIn (db : Db) : Reply → Option Uuid
  | .user u => some u
  | .authenticated u => some u.id
  | .completed (.ok x) => (findSession db x.session.id).map (·.userId)
  | _ => none

theorem Call.identityOf_login {c : Call} {identity : VerifiedGoogleIdentity}
    (h : c.loginOf = some identity) : c.identityOf = some (googleIssuer, identity.subject) := by
  cases c <;> cases h <;> rfl

def identityTables : List Table := [.users, .externalIdentities, .userProfiles]

/-- **What one call does to users, identities and profiles.** -/
inductive IdentityChange (P : Platform) (c : Request) (a : Db) : Reply → Db → Prop where
  | same {r : Reply} {b : Db} (hr : c.call.identityOf.isSome = true → r.isOk = false)
      (h : SameRows identityTables a b) : IdentityChange P c a r b
  | found (issuer subject : String)
      (hc : c.call = .findOrCreateExternalIdentity issuer subject) :
      IdentityChange P c a (.user (foundOrCreated c.tape issuer subject a).1)
        (foundOrCreated c.tape issuer subject a).2
  | login {r : Reply} {b : Db} (identity : VerifiedGoogleIdentity)
      (hc : c.call.loginOf = some identity) (hr : r.isOk = true)
      (huser : r.userIn b = some (identified c.tape identity (c.tape.now 0) a).1)
      (h : SameRows identityTables (identified c.tape identity (c.tape.now 0) a).2 b) :
      IdentityChange P c a r b

theorem findOrCreateExternalIdentity_run {issuer subject : String} {u : Uuid}
    (h : (findOrCreateExternalIdentity P t issuer subject).tx.run db = (u, db')) :
    u = (foundOrCreated t issuer subject db).1 ∧ db' = (foundOrCreated t issuer subject db).2 := by
  refine Tx.run_of_post h ((post_advisoryLock ..).mpr (post_findOrCreateUser.mpr ?_))
  exact (post_commit ..).mpr ⟨rfl, rfl⟩

theorem findOrCreateVerifiedGoogleIdentity_run {identity : VerifiedGoogleIdentity}
    {u : AuthenticatedUser}
    (h : (findOrCreateVerifiedGoogleIdentity P t identity).tx.run db = (u, db')) :
    u.id = (identified t identity (t.now 0) db).1 ∧
      db' = (identified t identity (t.now 0) db).2 := by
  refine Tx.run_of_post h ((post_advisoryLock ..).mpr
    (post_upsertVerifiedGoogleIdentity.mpr ?_))
  exact (post_commit ..).mpr ⟨rfl, rfl⟩

/-- A login leaves the identity tables as finding its identity does. -/
theorem sameRows_loggedIn {identity : VerifiedGoogleIdentity} {seconds : Nat}
    {row : BrowserRow} :
    SameRows identityTables (identified t identity (t.now 0) db).2
      (loggedInRows P t identity seconds row db) := by
  unfold loggedInRows
  exact (sameRows_insert _ (by decide)).trans (sameRows_update _ _ (by decide))

/-- The session of a login is the one it returns. -/
theorem findSession_loggedIn {identity : VerifiedGoogleIdentity} {seconds : Nat}
    {row : BrowserRow} (hgood : (contract P).Good c db) :
    (findSession (loggedInRows P c.tape identity seconds row db) (c.tape.uuid 0)).map
        (·.userId) =
      some (identified c.tape identity (c.tape.now 0) db).1 := by
  have hrows : (loggedInRows P c.tape identity seconds row db).rows .providerSessions =
      db.rows .providerSessions ++ [loginSession P c.tape identity seconds
        (identified c.tape identity (c.tape.now 0) db).1] := by
    unfold loggedInRows
    rw [Db.update_rows_ne _ _ _ (by decide), Db.insert_rows_self, identified_rows (by simp)]
  have hnone : (db.rows .providerSessions).find? (fun s => SessionRow.id s = c.tape.uuid 0) =
      none := by
    refine List.find?_eq_none.mpr fun s hs e => ?_
    have hdrawn : (calls P).draws c (.id (c.tape.uuid 0)) := ⟨0, rfl⟩
    have hname : Name.id (c.tape.uuid 0) ∈ Row.names (t := .providerSessions) s := by
      rw [← of_decide_eq_true e]
      exact List.mem_cons_self
    exact hgood.fresh .providerSessions s hs _ hname hdrawn
  unfold findSession
  rw [hrows, List.find?_append, hnone]
  simp [loginSession, SessionRow.start]

theorem identityChange {r : Reply} (hgood : (contract P).Good c db)
    (h : (program P c).run db = (r, db')) : IdentityChange P c db r db' := by
  obtain ⟨call, tape⟩ := c
  cases call with
  | findOrCreateExternalIdentity issuer subject =>
      obtain ⟨u, hx, rfl⟩ := run_of_map h
      obtain ⟨rfl, rfl⟩ := findOrCreateExternalIdentity_run hx
      exact .found issuer subject rfl
  | findOrCreateVerifiedGoogleIdentity identity =>
      obtain ⟨u, hx, rfl⟩ := run_of_map h
      obtain ⟨hid, rfl⟩ := findOrCreateVerifiedGoogleIdentity_run hx
      exact .login identity rfl rfl (congrArg some hid) (SameRows.refl _ _)
  | completeCallback claim identity lifetime registry =>
      obtain ⟨x, hx, rfl⟩ := run_of_map h
      rcases completeCallback_run hx with
        ⟨⟨e, rfl⟩, rfl⟩ | ⟨row, _, _, ⟨_, rfl, rfl⟩ | ⟨seconds, _, _, rfl, rfl⟩⟩
      · exact .same (fun _ => rfl) (SameRows.refl _ _)
      · exact .same (fun _ => rfl) (sameRows_update _ _ (by decide))
      · exact .login identity rfl rfl (findSession_loggedIn hgood) sameRows_loggedIn
  | _ =>
      exact .same (fun e => by cases e) (sameRows_frame h (by simp [identityTables, Call.writes]))

/-! ## 2. Users -/

/-- Every user has an identity. -/
def UsersIdentified (db : Db) : Prop :=
  ∀ u ∈ db.rows .users, ∃ i ∈ db.rows .externalIdentities,
    ExternalIdentityRow.userId i = User.id u

theorem UsersIdentified.of_same {a b : Db} (h : SameRows identityTables a b)
    (ha : UsersIdentified a) : UsersIdentified b := by
  unfold UsersIdentified
  rw [h .users (by decide), h .externalIdentities (by decide)]
  exact ha

theorem UsersIdentified.foundOrCreated (h : UsersIdentified db) (issuer subject : String) :
    UsersIdentified (foundOrCreated t issuer subject db).2 := by
  unfold Eri.foundOrCreated
  split
  · exact h
  · intro u hu
    rw [Db.insert_rows_ne _ _ (by decide), Db.insert_rows_self] at hu
    rw [Db.insert_rows_self, Db.insert_rows_ne _ _ (by decide)]
    rcases List.mem_append.mp hu with hu | hu
    · obtain ⟨i, hi, hid⟩ := h u hu
      exact ⟨i, List.mem_append_left _ hi, hid⟩
    · rw [List.mem_singleton.mp hu]
      exact ⟨_, List.mem_append_right _ List.mem_cons_self, rfl⟩

/-- The profile of a login is written after its user is there. -/
theorem identified_foundOrCreated {identity : VerifiedGoogleIdentity} {now : Time} {u : Table}
    (hu : u ≠ .userProfiles) : (identified t identity now db).2.rows u =
      (foundOrCreated t googleIssuer identity.subject db).2.rows u :=
  Db.upsert_rows_ne _ _ _ hu

theorem kept_users : Kept (contract P) (program P) UsersIdentified := by
  intro c db hgood h
  generalize hrun : (program P c).run db = out
  obtain ⟨r, db'⟩ := out
  cases identityChange hgood hrun with
  | same _ hsame => exact h.of_same hsame
  | found issuer subject _ => exact h.foundOrCreated issuer subject
  | login identity _ _ _ hsame =>
      refine UsersIdentified.of_same hsame ?_
      unfold UsersIdentified
      rw [identified_foundOrCreated (by decide), identified_foundOrCreated (by decide)]
      exact h.foundOrCreated googleIssuer identity.subject

/-- **No user without an identity.** -/
theorem reachable_users (h : Reachable P M) : UsersIdentified M.db :=
  reachable_kept (lawful P) kept_users (fun _ hu => absurd hu List.not_mem_nil) h

/-! ## 3. The user of an identity -/

/-- An identity in the table is the one found by its issuer and subject. -/
theorem findIdentity_of_mem (hI : (layout P).Integrity db) {i : ExternalIdentityRow}
    (hi : i ∈ db.rows .externalIdentities) :
    findIdentity db i.issuer i.subject = some i.userId := by
  have hname : ∀ x : Row .externalIdentities, (ExternalIdentityRow.issuer x = i.issuer &&
      ExternalIdentityRow.subject x = i.subject) = true →
      Name.subject i.issuer i.subject ∈ Row.names x := by
    intro x hx
    simp only [Bool.and_eq_true, decide_eq_true_eq] at hx
    rw [← hx.1, ← hx.2]
    exact List.mem_cons_of_mem _ List.mem_cons_self
  unfold findIdentity
  rw [hI.find hname hi (by simp)]
  rfl

theorem findIdentity_mem {issuer subject : String} {u : Uuid}
    (h : findIdentity db issuer subject = some u) :
    ∃ i ∈ db.rows .externalIdentities, ExternalIdentityRow.issuer i = issuer ∧
      ExternalIdentityRow.subject i = subject ∧ ExternalIdentityRow.userId i = u := by
  obtain ⟨i, hi, rfl⟩ := Option.map_eq_some_iff.mp h
  have hshown := List.find?_some hi
  simp only [Bool.and_eq_true, decide_eq_true_eq] at hshown
  exact ⟨i, List.mem_of_find?_eq_some hi, hshown.1, hshown.2, rfl⟩

/-- **An identity keeps its user.** -/
theorem findIdentity_later {a b : Db} (hI : (layout P).Integrity b) (hp : Progress a b)
    {issuer subject : String} {u : Uuid} (h : findIdentity a issuer subject = some u) :
    findIdentity b issuer subject = some u := by
  obtain ⟨i, hi, rfl, rfl, rfl⟩ := findIdentity_mem h
  obtain ⟨i', hi', hl⟩ := hp .externalIdentities i hi
  obtain rfl : i' = i := hl
  exact findIdentity_of_mem hI hi'

theorem findIdentity_foundOrCreated {issuer subject : String} :
    findIdentity (foundOrCreated t issuer subject db).2 issuer subject =
      some (foundOrCreated t issuer subject db).1 := by
  unfold foundOrCreated
  cases hfound : findIdentity db issuer subject with
  | some user => exact hfound
  | none =>
      have hnone : (db.rows .externalIdentities).find? (fun i =>
          i.issuer = issuer && i.subject = subject) = none := Option.map_eq_none_iff.mp hfound
      unfold findIdentity
      dsimp only
      rw [Db.insert_rows_self, Db.insert_rows_ne _ _ (by decide), List.find?_append, hnone]
      simp

theorem findIdentity_same {a b : Db} (h : SameRows identityTables a b)
    (issuer subject : String) : findIdentity b issuer subject = findIdentity a issuer subject := by
  unfold findIdentity
  rw [h .externalIdentities (by decide)]

/-- **A call that succeeds returns the user its identity has afterwards.** -/
theorem IdentityChange.returned {r : Reply} (h : IdentityChange P c db r db')
    {issuer subject : String} (hc : c.call.identityOf = some (issuer, subject))
    (hr : r.isOk = true) :
    ∃ u, r.userIn db' = some u ∧ findIdentity db' issuer subject = some u := by
  cases h with
  | same hfails _ =>
      rw [hfails (by rw [hc]; rfl)] at hr
      cases hr
  | found issuer' subject' hcall =>
      rw [hcall] at hc
      cases hc
      exact ⟨_, rfl, findIdentity_foundOrCreated⟩
  | login identity hlogin _ huser hsame =>
      rw [Call.identityOf_login hlogin] at hc
      cases hc
      refine ⟨_, huser, ?_⟩
      rw [findIdentity_same hsame]
      exact findIdentity_identified

/-! ## 4. Logins and their lock -/

/-- An entry is a login with the identity. -/
def Login (e : Entry) (identity : VerifiedGoogleIdentity) : Prop :=
  e.call.call.loginOf = some identity ∧ e.reply.isOk = true

/-- When a login reads the clock. -/
def Request.reading (c : Request) : Option Time :=
  if c.call.loginOf.isSome = true then some (c.tape.now 0) else none

section Held

variable {l : Local schema} {ρ : Type} {E : ρ → Local schema → Prop}

theorem visits_findOrCreateUser {issuer subject : String} {k : Uuid → Tx schema ρ}
    (h : ∀ user l', l.now.held ⊆ l'.now.held → (k user).Visits (fun _ _ => True) E db l') :
    (findOrCreateUser t issuer subject k).Visits (fun _ _ => True) E db l := by
  refine visits_select trivial ?_
  dsimp only
  generalize findIdentity (l.now.eff db) issuer subject = existing
  cases existing with
  | some user => exact h user l (List.Subset.refl _)
  | none =>
      refine visits_insert trivial (visits_insert trivial (h _ _ ?_))
      exact fun x hx => List.mem_cons_of_mem _ (List.mem_cons_of_mem _ hx)

theorem visits_checkedStaged {ε α β : Type} {x : Except ε α}
    {E : Except ε β → Local schema → Prop} {k : α → Tx schema (Except ε β)}
    (hE : ∀ e l', E (.error e) l') (h : ∀ a, (k a).Visits (fun _ _ => True) E db l) :
    (checkedStaged x k).Visits (fun _ _ => True) E db l := by
  unfold checkedStaged
  split
  · exact h _
  · exact visits_rollbackToSavepoint trivial (visits_abort k (hE _ _))

theorem findOrCreateVerifiedGoogleIdentity_held {identity : VerifiedGoogleIdentity}
    {E : AuthenticatedUser → Local schema → Prop}
    (hE : ∀ r (l : Local schema),
      .advisory (identityLock P googleIssuer identity.subject) ∈ l.now.held → E r l) :
    (findOrCreateVerifiedGoogleIdentity P t identity).tx.Visits (fun _ _ => True) E db .init := by
  refine visits_advisoryLock trivial (visits_findOrCreateUser fun user l hl => ?_)
  refine visits_upsert trivial (visits_commit _ (hE _ _ ?_))
  exact List.mem_cons_of_mem _ (hl List.mem_cons_self)

theorem completeCallback_held {claim : String} {identity : VerifiedGoogleIdentity}
    {lifetime : Duration} {registry : Option ClientRegistry} :
    (completeCallback P t claim identity lifetime registry).tx.Visits (fun _ _ => True)
      (fun r l => r.isOk = true →
        .advisory (identityLock P googleIssuer identity.subject) ∈ l.now.held) db .init := by
  have herror : ∀ (e : BrowserError) (l : Local schema),
      (Except.error e : Except BrowserError LoginCompletion).isOk = true →
        Lock.advisory (identityLock P googleIssuer identity.subject) ∈ l.now.held :=
    fun e l he => by cases he
  refine visits_checked (fun e _ => herror _ _) fun seconds _ => ?_
  refine visits_lockOr trivial (herror _ _) fun row _ => ?_
  refine visits_lockOr trivial (herror _ _) fun policyRow _ => ?_
  refine visits_checked (fun e _ => herror _ _) fun _ _ => visits_savepoint trivial ?_
  refine visits_advisoryLock trivial (visits_checkedStaged herror fun _ => ?_)
  refine visits_findOrCreateUser fun user l hl => visits_upsert trivial (visits_insert trivial ?_)
  refine visits_ite (fun _ => ?_) fun _ => ?_
  · -- too late: the lock is given back, and the call fails
    exact visits_rollbackToSavepoint trivial (visits_update trivial (visits_commit _ (herror _ _)))
  · refine visits_checkedStaged herror fun _ => visits_releaseSavepoint trivial
      (visits_update trivial (visits_ensure (herror _ _) fun _ => ?_))
    refine visits_checked (fun e _ => herror _ _) fun _ _ => visits_commit _ fun _ => ?_
    rw [held_updated]
    exact List.mem_append_right _ (List.mem_cons_of_mem _ (List.mem_cons_of_mem _
      (hl List.mem_cons_self)))

end Held

/-- **A login takes effect with the lock of its identity.** -/
theorem login_held {e : Entry} {identity : VerifiedGoogleIdentity}
    (hrun : (program P e.call).run e.before = (e.reply, e.after)) (h : Login e identity) :
    e.Held (program P) (identityLock P googleIssuer identity.subject) := by
  obtain ⟨hcall, hok⟩ := h
  have hvisits : (program P e.call).Visits (fun _ _ => True) (fun r l => r.isOk = true →
      .advisory (identityLock P googleIssuer identity.subject) ∈ l.now.held) e.before .init := by
    obtain ⟨thread, ⟨call, tape⟩, reply, before, after⟩ := e
    cases call with
    | findOrCreateVerifiedGoogleIdentity identity' =>
        cases hcall
        exact (visits_map _ _ _).mpr
          (findOrCreateVerifiedGoogleIdentity_held fun _ _ hl _ => hl)
    | completeCallback claim identity' lifetime registry =>
        cases hcall
        exact (visits_map _ _ _).mpr completeCallback_held
    | _ => cases hcall
  obtain ⟨q, l, hq, hsolo, hheld⟩ := visits_end hvisits
  refine ⟨q, l, hq, hsolo, hheld ?_⟩
  rw [hrun]
  exact hok

/-! ## 5. Profiles -/

theorem run_progress {r : Reply} (hgood : (contract P).Good c db)
    (h : (program P c).run db = (r, db')) : Progress db db' := by
  obtain ⟨held, hallowed⟩ := run_allowed ((lawful P).keeps c) hgood
  rw [h] at hallowed
  have hrely : (layout P).Rely [] db db' :=
    hallowed.rely [] fun _ hk => absurd hk List.not_mem_nil
  exact fun u x hx => hrely.later hx

/-- The profiles after a login: its own, and those of other users. -/
theorem mem_identified {identity : VerifiedGoogleIdentity} {now : Time} {p : ProfileRow}
    (h : p ∈ (identified t identity now db).2.rows .userProfiles) :
    p = .of (identified t identity now db).1 identity now ∨
      (p ∈ db.rows .userProfiles ∧ p.userId ≠ (identified t identity now db).1) := by
  have hrows : (foundOrCreated t googleIssuer identity.subject db).2.rows .userProfiles =
      db.rows .userProfiles := by
    unfold foundOrCreated
    split
    · rfl
    · rw [Db.insert_rows_ne _ _ (by decide), Db.insert_rows_ne _ _ (by decide)]
  unfold identified Db.upsert at h
  dsimp only at h
  split at h
  · rw [Db.update_rows_self, hrows] at h
    obtain ⟨x, hx, rfl⟩ := List.mem_map.mp h
    by_cases hkey : x.userId = (foundOrCreated t googleIssuer identity.subject db).1
    · left
      have hhit : decide (Row.key (t := .userProfiles) x = Row.key (t := .userProfiles)
          (.of (foundOrCreated t googleIssuer identity.subject db).1 identity now)) = true :=
        decide_eq_true hkey
      rw [if_pos hhit]
      exact congrArg (ProfileRow.of · identity now) hkey
    · right
      have hmiss : ¬decide (Row.key (t := .userProfiles) x = Row.key (t := .userProfiles)
          (.of (foundOrCreated t googleIssuer identity.subject db).1 identity now)) = true :=
        fun e => hkey (of_decide_eq_true e)
      rw [if_neg hmiss]
      exact ⟨hx, hkey⟩
  · rename_i hnone
    rw [Db.insert_rows_self, hrows] at h
    rcases List.mem_append.mp h with h | h
    · refine Or.inr ⟨h, fun e => hnone ⟨p, ?_, e⟩⟩
      rw [hrows]
      exact h
    · exact Or.inl (List.mem_singleton.mp h)

/-- **A profile is the one of the last login of its user.** -/
def LastLogin (log : List Entry) (db : Db) (p : ProfileRow) : Prop :=
  ∃ l₁ e l₂ identity, log = l₁ ++ e :: l₂ ∧ Login e identity ∧
    findIdentity db googleIssuer identity.subject = some p.userId ∧
    p = .of p.userId identity (e.call.tape.now 0) ∧
    ∀ e' ∈ l₂, ∀ identity', Login e' identity' → identity'.subject ≠ identity.subject

/-- A call that is no login of the profile's user leaves the last login as it was. -/
theorem LastLogin.snoc {log : List Entry} {p : ProfileRow} {e : Entry}
    (hI : (layout P).Integrity db') (hp : Progress db db') (h : LastLogin log db p)
    (he : ∀ identity, Login e identity →
      findIdentity db googleIssuer identity.subject ≠ some p.userId) :
    LastLogin (log ++ [e]) db' p := by
  obtain ⟨l₁, e₁, l₂, identity, rfl, hlogin, hfound, hrow, hlast⟩ := h
  refine ⟨l₁, e₁, l₂ ++ [e], identity, by simp, hlogin, findIdentity_later hI hp hfound, hrow,
    fun e' he' identity' hlogin' => ?_⟩
  rcases List.mem_append.mp he' with he' | he'
  · exact hlast e' he' identity' hlogin'
  · rw [List.mem_singleton.mp he'] at hlogin'
    intro hsubject
    exact he identity' hlogin' (hsubject ▸ hfound)

theorem lastLogin_step {log : List Entry} {e : Entry} {r : Reply}
    (hI : (layout P).Integrity db') (hp : Progress db db')
    (hchange : IdentityChange P e.call db r db') (hreply : e.reply = r)
    (h : ∀ p ∈ db.rows .userProfiles, LastLogin log db p) :
    ∀ p ∈ db'.rows .userProfiles, LastLogin (log ++ [e]) db' p := by
  intro p hmem
  cases hchange with
  | same hfails hsame =>
      rw [hsame .userProfiles (by decide)] at hmem
      refine (h p hmem).snoc hI hp fun identity hlogin => ?_
      rw [← hreply, hlogin.2] at hfails
      cases hfails (by rw [Call.identityOf_login hlogin.1]; rfl)
  | found issuer subject hc =>
      have hrows : (foundOrCreated e.call.tape issuer subject db).2.rows .userProfiles =
          db.rows .userProfiles := by
        unfold foundOrCreated
        split
        · rfl
        · rw [Db.insert_rows_ne _ _ (by decide), Db.insert_rows_ne _ _ (by decide)]
      rw [hrows] at hmem
      refine (h p hmem).snoc hI hp fun identity hlogin => ?_
      rw [Login, hc] at hlogin
      cases hlogin.1
  | login identity hc hr huser hsame =>
      rw [hsame .userProfiles (by decide)] at hmem
      rcases mem_identified hmem with rfl | ⟨hold, hother⟩
      · refine ⟨log, e, [], identity, rfl, ⟨hc, hreply ▸ hr⟩, ?_, rfl,
          fun e' he' => absurd he' List.not_mem_nil⟩
        rw [findIdentity_same hsame]
        exact findIdentity_identified
      · refine (h p hold).snoc hI hp fun identity' hlogin hfound => hother ?_
        -- a login of this user would have found it
        obtain rfl : identity' = identity := Option.some.inj (hlogin.1.symm.trans hc)
        have hcreated : (identified e.call.tape identity' (e.call.tape.now 0) db).1 =
            p.userId := by
          show (foundOrCreated e.call.tape googleIssuer identity'.subject db).1 = p.userId
          unfold foundOrCreated
          rw [hfound]
        exact hcreated.symm

theorem atomic_profiles {log : List Entry}
    (h : Atomic (program P) (contract P).compat Db.empty log db) :
    ∀ p ∈ db.rows .userProfiles, LastLogin log db p := by
  induction h with
  | nil => exact fun p hp => absurd hp List.not_mem_nil
  | snoc h e hb hrun hc ih =>
      obtain ⟨hinv, hfresh⟩ := h.good (lawful P)
      have hgood : (contract P).Good e.call _ := ⟨hinv, hfresh e.call hc⟩
      have hI : (layout P).Integrity e.after := ((Atomic.snoc h e hb hrun hc).good (lawful P)).1
      exact lastLogin_step hI (run_progress hgood hrun) (identityChange hgood hrun) rfl ih

/-! ## 6. The mapping -/

/-- The runs under a database clock that never goes back. -/
abbrev Clocked (P : Platform) (M : Machine schema Request Reply) (now : Time) : Prop :=
  Sql.Clocked (program P) (contract P).compat Sql.Db.empty Request.reading M now

theorem reading_login {e : Entry} {identity : VerifiedGoogleIdentity} (h : Login e identity) :
    e.call.reading = some (e.call.tape.now 0) := by
  unfold Request.reading
  rw [h.1]
  rfl

/-- Of two logins with one identity the earlier one has read the clock earlier. -/
theorem login_order {now : Time} (h : Clocked P M now) {e e' : Entry}
    {identity identity' : VerifiedGoogleIdentity} (hb : Before M e e') (hl : Login e identity)
    (hl' : Login e' identity') (hs : identity.subject = identity'.subject) :
    e.call.tape.now 0 ≤ e'.call.tape.now 0 := by
  have he : e ∈ M.log := hb.subset List.mem_cons_self
  have he' : e' ∈ M.log := hb.subset (List.mem_cons_of_mem _ List.mem_cons_self)
  have hheld := login_held (reachable_entry (lawful P) h.reachable he).2 hl
  have hheld' := login_held (reachable_entry (lawful P) h.reachable he').2 hl'
  rw [← hs] at hheld'
  exact clocked_order (lawful P) h hb hheld hheld' (reading_login hl) (reading_login hl')

/-- **A profile is the one of the login with the greatest time.** -/
theorem reachable_profiles {now : Time} (h : Clocked P M now) {p : ProfileRow}
    (hp : p ∈ M.db.rows .userProfiles) :
    ∃ e ∈ M.log, ∃ identity, Login e identity ∧
      findIdentity M.db googleIssuer identity.subject = some p.userId ∧
      p = .of p.userId identity (e.call.tape.now 0) ∧
      ∀ e' ∈ M.log, ∀ identity', Login e' identity' →
        identity'.subject = identity.subject →
        e' = e ∨ (Before M e' e ∧ e'.call.tape.now 0 ≤ p.updatedAt) := by
  obtain ⟨l₁, e, l₂, identity, hlog, hlogin, hfound, hrow, hlast⟩ :=
    atomic_profiles (serial_reachable (lawful P) h.reachable).atomic p hp
  have he : e ∈ M.log := by
    rw [hlog]
    exact List.mem_append_right _ List.mem_cons_self
  refine ⟨e, he, identity, hlogin, hfound, hrow, fun e' he' identity' hlogin' hsubject => ?_⟩
  rw [hlog] at he'
  rcases List.mem_append.mp he' with hbefore | hafter
  · have hb : Before M e' e := by
      rw [Before, hlog]
      exact (List.singleton_sublist.mpr hbefore).append
        (List.singleton_sublist.mpr List.mem_cons_self)
    refine Or.inr ⟨hb, ?_⟩
    have htime : p.updatedAt = e.call.tape.now 0 := congrArg ProfileRow.updatedAt hrow
    rw [htime]
    exact login_order h hb hlogin' hlogin hsubject
  · rcases List.mem_cons.mp hafter with rfl | hafter
    · exact Or.inl rfl
    · exact absurd hsubject (hlast e' hafter identity' hlogin')

theorem entry_identity (h : Reachable P M) {e : Entry} (he : e ∈ M.log) :
    IdentityChange P e.call e.before e.reply e.after :=
  identityChange (reachable_entry (lawful P) h he).1 (reachable_entry (lawful P) h he).2

/-- A login leaves a profile of its user. -/
theorem login_profile (h : Reachable P M) {e : Entry} {identity : VerifiedGoogleIdentity}
    (he : e ∈ M.log) (hl : Login e identity) :
    ∃ p ∈ M.db.rows .userProfiles,
      findIdentity M.db googleIssuer identity.subject = some (ProfileRow.userId p) := by
  have hI : (layout P).Integrity M.db := reachable_integrity h
  have hprogress := entry_progress_after h he
  have hchange := entry_identity h he
  generalize hreply : e.reply = r at hchange
  generalize hafter : e.after = b at hchange hprogress
  cases hchange with
  | same hfails _ =>
      rw [← hreply, hl.2] at hfails
      cases hfails (by rw [Call.identityOf_login hl.1]; rfl)
  | found issuer subject hc =>
      rw [Login, hc] at hl
      cases hl.1
  | login identity' hc _ _ hsame =>
      obtain rfl : identity' = identity := Option.some.inj (hc.symm.trans hl.1)
      have hprofile : ProfileRow.of
          (identified e.call.tape identity' (e.call.tape.now 0) e.before).1 identity'
          (e.call.tape.now 0) ∈
          (identified e.call.tape identity' (e.call.tape.now 0) e.before).2.rows .userProfiles :=
        profile_identified
      rw [← hsame .userProfiles (by decide)] at hprofile
      obtain ⟨p, hp, hlater⟩ := hprogress _ _ hprofile
      have hsame_user : p.userId = _ := hlater
      refine ⟨p, hp, findIdentity_later hI hprogress ?_⟩
      rw [findIdentity_same hsame, hsame_user]
      exact findIdentity_identified

/-- **Identity mapping.** In every run, and from it to every later machine: an identity has one
    user, for ever, and a user one identity; no user is without one, whatever was rolled back.
    All calls for an identity that succeed return its one user. Under a database clock that
    never goes back, the profile of a user is, in all its fields, the one of the login with the
    greatest time. -/
theorem identity_mapping (P : Platform) (hreach : Reachable P M)
    (hs : Steps (program P) (contract P).compat M M') :
    (∀ i ∈ M.db.rows .externalIdentities, ∀ i' ∈ M.db.rows .externalIdentities,
      (ExternalIdentityRow.issuer i = ExternalIdentityRow.issuer i' →
        ExternalIdentityRow.subject i = ExternalIdentityRow.subject i' → i = i') ∧
      (ExternalIdentityRow.userId i = ExternalIdentityRow.userId i' → i = i')) ∧
    (∀ i ∈ M.db.rows .externalIdentities, i ∈ M'.db.rows .externalIdentities) ∧
    (∀ u ∈ M.db.rows .users, ∃! i, i ∈ M.db.rows .externalIdentities ∧
      ExternalIdentityRow.userId i = User.id u) ∧
    (∀ e ∈ M.log, ∀ issuer subject, e.call.call.identityOf = some (issuer, subject) →
      e.reply.isOk = true → ∃ u, e.reply.userIn e.after = some u ∧
        findIdentity M.db issuer subject = some u) ∧
    (∀ e ∈ M.log, ∀ identity, Login e identity → ∃ p ∈ M.db.rows .userProfiles,
      findIdentity M.db googleIssuer identity.subject = some (ProfileRow.userId p)) ∧
    ∀ now, Clocked P M now →
      ∀ p ∈ M.db.rows .userProfiles, ∃ e ∈ M.log, ∃ identity, Login e identity ∧
        findIdentity M.db googleIssuer identity.subject = some (ProfileRow.userId p) ∧
        p = .of (ProfileRow.userId p) identity (e.call.tape.now 0) ∧
        ∀ e' ∈ M.log, ∀ identity', Login e' identity' →
          identity'.subject = identity.subject →
          e' = e ∨ (Before M e' e ∧ e'.call.tape.now 0 ≤ ProfileRow.updatedAt p) := by
  have hI : (layout P).Integrity M.db := reachable_integrity hreach
  have hlater := steps_rely (lawful P) hreach hs
  have howner : ∀ i ∈ M.db.rows .externalIdentities, ∀ i' ∈ M.db.rows .externalIdentities,
      ExternalIdentityRow.userId i = ExternalIdentityRow.userId i' → i = i' :=
    fun i hi i' hi' hu => hI.unique hi hi' (n := .owner (ExternalIdentityRow.userId i))
      List.mem_cons_self (hu ▸ List.mem_cons_self)
  refine ⟨fun i hi i' hi' => ⟨fun hissuer hsubject => ?_, howner i hi i' hi'⟩,
    fun i hi => ?_, fun u hu => ?_, fun e he issuer subject hc hok => ?_,
    fun e he identity hl => login_profile hreach he hl,
    fun now hclock p hp => reachable_profiles hclock hp⟩
  · refine hI.unique hi hi' (n := .subject (ExternalIdentityRow.issuer i)
      (ExternalIdentityRow.subject i)) (List.mem_cons_of_mem _ List.mem_cons_self) ?_
    rw [hissuer, hsubject]
    exact List.mem_cons_of_mem _ List.mem_cons_self
  · obtain ⟨i', hi', hl⟩ := hlater.later hi
    obtain rfl : i' = i := hl
    exact hi'
  · obtain ⟨i, hi, hid⟩ := reachable_users hreach u hu
    exact ⟨i, ⟨hi, hid⟩, fun i' hi' => howner i' hi'.1 i hi (hi'.2.trans hid.symm)⟩
  · obtain ⟨u, huser, hfound⟩ := (entry_identity hreach he).returned hc hok
    exact ⟨u, huser, findIdentity_later hI (entry_progress_after hreach he) hfound⟩

namespace Sample

/-- **A run by hand is a run under a clock.** -/
theorem clocked (steps : List Step) (h : Apart steps) :
    ∃ now, Clocked platform (machine steps) now := by
  have hreading : ∀ c : Request, ∀ x ∈ c.reading, x = c.tape.now 0 := by
    intro c x hx
    unfold Request.reading at hx
    split at hx
    · exact (Option.some.inj hx).symm
    · cases hx
  have htimes : ∀ k, (requests k steps).Pairwise fun c c' => c.tape.now 0 ≤ c'.tape.now 0 := by
    induction steps with
    | nil => exact fun k => .nil
    | cons s steps ih =>
        have hrest : Apart steps :=
          ⟨fun x hx => h.1 x (List.mem_cons_of_mem _ hx),
            (List.nodup_append.mp (List.flatMap_cons ▸ h.2)).2.1⟩
        refine fun k => .cons (fun c hc => ?_) (ih hrest (k + 1))
        obtain ⟨x, _, n, hn, rfl⟩ := mem_requests hc
        have hle : (k : Int) ≤ n := by omega
        exact Int.mul_le_mul_of_nonneg_right hle (by decide)
  have hstart : ∀ c ∈ requests 0 steps, (0 : Time) ≤ c.tape.now 0 := by
    intro c hc
    obtain ⟨x, _, n, _, rfl⟩ := mem_requests hc
    exact Int.mul_nonneg (Int.natCast_nonneg n) (by decide)
  obtain ⟨now, hclocked, _⟩ :=
    clocked_sequential 0 hreading (requests_pairwise _ _ h) (htimes 0) hstart
  exact ⟨now, hclocked⟩

/-- A user signs in twice, the second time without a name. -/
def loginSteps : List Step :=
  [(.findOrCreateVerifiedGoogleIdentity { identity with name := some "Name" }, [.login]),
   (.findOrCreateVerifiedGoogleIdentity identity, [.late])]

/-- Then a session begins. -/
def sessionSteps : List Step := [(.createProviderSession ⟨1, none⟩ ⟨3600, 0⟩, [.session])]

end Sample

/-- The profile is the one of the second login, without a name; a session later both identities
    are the same. -/
theorem identity_mapping_cleared :
    (∃! i, i ∈ (Sample.machine Sample.loginSteps).db.rows .externalIdentities ∧
      ExternalIdentityRow.userId i = 1) ∧
    (∀ i ∈ (Sample.machine Sample.loginSteps).db.rows .externalIdentities,
      i ∈ (Sample.machine (Sample.loginSteps ++ Sample.sessionSteps)).db.rows
        .externalIdentities) ∧
    ∃ p ∈ (Sample.machine Sample.loginSteps).db.rows .userProfiles, ProfileRow.name p = none ∧
      ∃ e ∈ (Sample.machine Sample.loginSteps).log, ∃ identity, Login e identity ∧
        p = .of (ProfileRow.userId p) identity (e.call.tape.now 0) := by
  obtain ⟨now, hclocked⟩ := Sample.clocked Sample.loginSteps (by decide)
  obtain ⟨_, hkept, husers, _, _, hprofiles⟩ := identity_mapping Sample.platform hclocked.reachable
    (Sample.later (by decide : Sample.Apart (Sample.loginSteps ++ Sample.sessionSteps)))
  obtain ⟨⟨u, hu, hid⟩, p, hp, hname⟩ :
      (∃ u ∈ (Sample.machine Sample.loginSteps).db.rows .users, User.id u = 1) ∧
      ∃ p ∈ (Sample.machine Sample.loginSteps).db.rows .userProfiles,
        ProfileRow.name p = none := by
    decide +kernel
  obtain ⟨e, he, identity, hlogin, _, hrow, _⟩ := hprofiles now hclocked p hp
  exact ⟨hid ▸ husers u hu, hkept, p, hp, hname, e, he, identity, hlogin, hrow⟩

end Eri
