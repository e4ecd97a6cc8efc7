/-
  File:      Eri/Changes.lean
  Subject:   What one call does to the sessions, codes, families and tokens.

  `CredentialChange` has one case for each effect the 31 calls can have on these four tables,
  on rows with their integrity, where the row read by a hash and the rows locked by ids are
  the same (`CodePresented.row`, `TokenPresented.rows`). Every invariant of grants is proved
  case by case over it.
-/
import Eri.Keeps.Browser
import Eri.Specs.Browser
import Eri.Specs.Credentials

namespace Eri

open Sql

variable {P : Platform} {t : Tape} {c : Request} {db db' : Db}

/-! ## 1. Rows found by their names -/

theorem find_mem {t : Table} {p : Row t → Bool} {r : Row t} (h : (db.rows t).find? p = some r) :
    r ∈ db.rows t := List.mem_of_find?_eq_some h

theorem findSession_mem {id : Uuid} {s : SessionRow} (h : findSession db id = some s) :
    s ∈ db.rows .providerSessions ∧ s.id = id :=
  ⟨List.mem_of_find?_eq_some h, of_decide_eq_true (List.find?_some h :)⟩

/-- A token with its family. -/
theorem findMember_mem {h : Digest} {m : MemberRow} {f : FamilyRow}
    (hf : findMember db h = some (m, f)) :
    m ∈ db.rows .refreshTokenMembers ∧ m.tokenHash = h ∧ f ∈ db.rows .refreshFamilies ∧
      f.id = m.familyId := by
  simp only [findMember, Option.bind_eq_bind, Option.bind_eq_some_iff] at hf
  obtain ⟨m', hm, f', hf, e⟩ := hf
  cases e
  exact ⟨find_mem hm, of_decide_eq_true (List.find?_some hm :), find_mem hf,
    of_decide_eq_true (List.find?_some hf :)⟩

theorem findMember_of_mem {m : MemberRow} {f : FamilyRow} {h : Digest}
    (hI : (layout P).Integrity db) (hm : m ∈ db.rows .refreshTokenMembers) (hhash : m.tokenHash = h)
    (hf : f ∈ db.rows .refreshFamilies) (hid : f.id = m.familyId) :
    findMember db h = some (m, f) := by
  have hfound : (db.rows .refreshTokenMembers).find? (fun m => m.tokenHash = h) = some m :=
    hI.find (n := .hash h) (fun r hr => by simp [Row.names, of_decide_eq_true hr]) hm
      (decide_eq_true hhash)
  have hfamily : (db.rows .refreshFamilies).find? (fun f => f.id = m.familyId) = some f := by
    rw [← hid]
    exact find_by_key hI hf (decide_eq_true rfl) fun _ hx => of_decide_eq_true hx
  simp [findMember, hfound, hfamily]

/-- A code that was presented is one stored row, locked with its session. -/
structure CodeShown (P : Platform) (raw : String) (db : Db) (code : AuthorizationCodeRow)
    (session : SessionRow) : Prop where
  stored : code ∈ db.rows .authorizationCodes
  hash : code.codeHash = secretHash P raw
  login : session ∈ db.rows .providerSessions
  ofLogin : session.id = code.sessionId

theorem CodePresented.row {a : ExchangeArgs} {seen code : AuthorizationCodeRow}
    {session : SessionRow} (hI : (layout P).Integrity db)
    (h : CodePresented P t a db seen code session) :
    seen = code ∧ CodeShown P a.raw db code session := by
  have hseen := find_mem (t := .authorizationCodes) h.found
  have hcode := find_mem (t := .authorizationCodes) h.locked
  have hid : code.id = seen.id := of_decide_eq_true (List.find?_some h.locked :)
  have e : seen = code := same_key hI hseen hcode hid.symm
  subst e
  obtain ⟨hs, hsid⟩ := findSession_mem h.lockedSession
  exact ⟨rfl, hcode, of_decide_eq_true (List.find?_some h.found :), hs, hsid⟩

/-- A token that was presented is one stored row, locked with its family and session. -/
structure TokenShown (P : Platform) (raw : String) (db : Db) (member : MemberRow)
    (family : FamilyRow) (session : SessionRow) : Prop where
  stored : member ∈ db.rows .refreshTokenMembers
  hash : member.tokenHash = secretHash P raw
  grant : family ∈ db.rows .refreshFamilies
  ofGrant : family.id = member.familyId
  login : session ∈ db.rows .providerSessions
  ofLogin : session.id = family.sessionId

theorem TokenPresented.rows {a : RotateArgs} {seen : MemberRow × FamilyRow}
    {member : MemberRow} {family : FamilyRow} {session : SessionRow}
    (hI : (layout P).Integrity db) (h : TokenPresented P t a db seen member family session) :
    seen = (member, family) ∧ TokenShown P a.raw db member family session := by
  obtain ⟨m, f⟩ := seen
  obtain ⟨hm, hhash, hf, hof⟩ := findMember_mem h.found
  have hfamily := find_mem (t := .refreshFamilies) h.lockedFamily
  have hmember := find_mem (t := .refreshTokenMembers) h.lockedMember
  have hfid : family.id = m.familyId := of_decide_eq_true (List.find?_some h.lockedFamily :)
  have hmid : member.id = m.id := of_decide_eq_true (List.find?_some h.lockedMember :)
  have em : m = member := same_key hI hm hmember hmid.symm
  have ef : f = family := same_key hI hf hfamily (hof.trans hfid.symm)
  subst em ef
  obtain ⟨hs, hsid⟩ := findSession_mem h.lockedSession
  exact ⟨rfl, hm, hhash, hf, hof, hs, hsid⟩

/-! ## 2. One call -/

/-- `b` has the rows of `a` in the given tables. -/
def SameRows (ts : List Table) (a b : Db) : Prop := ∀ t ∈ ts, b.rows t = a.rows t

/-- The grant a reply hands out. -/
def Reply.granted : Reply → Option ExchangeResult
  | .exchanged (.ok x) => some x
  | _ => none

/-- **What one call does to sessions, codes, families and tokens.** -/
inductive CredentialChange (P : Platform) (c : Request) (a : Db) : Reply → Db → Prop where
  | same {r : Reply} {b : Db} (hr : r.granted = none)
      (h : SameRows [.providerSessions, .authorizationCodes, .refreshFamilies,
        .refreshTokenMembers] a b) : CredentialChange P c a r b
  | login {r : Reply} {b : Db} (hr : r.granted = none) (s : SessionRow) (hs : s.revokedAt = none)
      (hrows : b.rows .providerSessions = a.rows .providerSessions ++ [s])
      (h : SameRows [.authorizationCodes, .refreshFamilies, .refreshTokenMembers] a b) :
      CredentialChange P c a r b
  | issue {r : Reply} {b : Db} (hr : r.granted = none) (code : AuthorizationCodeRow)
      (hc : code.consumedAt = none)
      (hrows : b.rows .authorizationCodes = a.rows .authorizationCodes ++ [code])
      (h : SameRows [.providerSessions, .refreshFamilies, .refreshTokenMembers] a b) :
      CredentialChange P c a r b
  | exchange (raw : String) (hc : c.call.exchangeOf = some raw) (code : AuthorizationCodeRow)
      (session : SessionRow) (hshown : CodeShown P raw a code session)
      (hredeem : code.Redeemable session (c.tape.now 0)) :
      CredentialChange P c a (.exchanged (.ok (exchangedResult c.tape code session)))
        (exchangedRows P c.tape code session a)
  | replayCode (raw : String) (hc : c.call.exchangeOf = some raw) (code : AuthorizationCodeRow)
      (session : SessionRow) (hshown : CodeShown P raw a code session)
      (hconsumed : code.consumedAt.isSome = true) :
      CredentialChange P c a (.exchanged (.error .invalidGrant))
        (replayedRows code (c.tape.now 0) a)
  | rotate (raw : String) (hc : c.call.rotationOf = some raw) (member : MemberRow)
      (family : FamilyRow) (session : SessionRow)
      (hshown : TokenShown P raw a member family session)
      (hrotate : member.Rotatable family session (c.tape.now 0)) :
      CredentialChange P c a
        (.exchanged (.ok (rotatedResult c.tape family.sessionId family session)))
        (rotatedRows P c.tape family.id member.id (c.tape.uuid 0) a)
  | revoke {r : Reply} (family : FamilyRow) (hf : family ∈ a.rows .refreshFamilies)
      (hr : r.granted = none) :
      CredentialChange P c a r (revokedRows family.id (c.tape.now 0) a)
  | logout {r : Reply} {b : Db} (session : SessionRow) (hs : session ∈ a.rows .providerSessions)
      (hr : r.granted = none) (now : Time) (set : FamilyRow → FamilyRow)
      (hset : ∀ f, ∃ at_, set f = f.revoke at_)
      (hsessions : b.rows .providerSessions =
        (a.update .providerSessions (fun s => s.id = session.id) (.revoke now)).rows
          .providerSessions)
      (hfamilies : b.rows .refreshFamilies =
        (a.update .refreshFamilies (fun f => f.sessionId = session.id) set).rows
          .refreshFamilies)
      (h : SameRows [.authorizationCodes, .refreshTokenMembers] a b) :
      CredentialChange P c a r b

theorem SameRows.refl (ts : List Table) (a : Db) : SameRows ts a a := fun _ _ => rfl

theorem sameRows_frame {r : Reply} {ts : List Table} (h : (program P c).run db = (r, db'))
    (hw : ∀ t ∈ ts, t ∉ c.call.writes) : SameRows ts db db' := fun t ht => by
  have := program_frame (P := P) (hw t ht) db
  rwa [h] at this

theorem sameRows_insert {ts : List Table} {u : Table} (row : Row u) (h : u ∉ ts) :
    SameRows ts db (db.insert u row) :=
  fun _ ht => Db.insert_rows_ne _ _ fun e => h (e ▸ ht)

theorem sameRows_update {ts : List Table} {u : Table} (p : Row u → Bool) (set : Row u → Row u)
    (h : u ∉ ts) : SameRows ts db (db.update u p set) :=
  fun _ ht => Db.update_rows_ne _ _ _ fun e => h (e ▸ ht)

theorem SameRows.trans {ts : List Table} {a b d : Db} (h : SameRows ts a b)
    (h' : SameRows ts b d) : SameRows ts a d := fun t ht => (h' t ht).trans (h t ht)

/-- A logout, also with writes to tables of other kinds before it. -/
theorem change_logout {r : Reply} {session : SessionRow} {now : Time}
    {set : FamilyRow → FamilyRow} {d : Db} (hs : session ∈ db.rows .providerSessions)
    (hr : r.granted = none) (hset : ∀ f, ∃ at_, set f = f.revoke at_)
    (hd : SameRows [.providerSessions, .authorizationCodes, .refreshFamilies,
      .refreshTokenMembers] db d) :
    CredentialChange P c db r (loggedOutRows session.id now set d) := by
  refine .logout session hs hr now set hset ?_ ?_ ?_
  · unfold loggedOutRows
    rw [Db.update_rows_ne _ _ _ (by decide), Db.update_rows_self, Db.update_rows_self,
      hd _ (by simp)]
  · unfold loggedOutRows
    rw [Db.update_rows_self, Db.update_rows_self, Db.update_rows_ne _ _ _ (by decide),
      hd _ (by simp)]
  · intro t ht
    have h₁ : t ≠ .refreshFamilies := by
      rintro rfl
      simp at ht
    have h₂ : t ≠ .providerSessions := by
      rintro rfl
      simp at ht
    unfold loggedOutRows
    rw [Db.update_rows_ne _ _ _ h₁, Db.update_rows_ne _ _ _ h₂]
    simp only [List.mem_cons, List.not_mem_nil, or_false] at ht
    exact hd t (by rcases ht with rfl | rfl <;> simp)

theorem change_approve {r : Reply} {session : ProviderSession} {handle : ConsentHandle}
    {s : SessionRow} {row : BrowserRow} {grant : ValidatedAuthorizationGrant}
    (hr : r.granted = none) :
    CredentialChange P c db r (approvedRows P c.tape session handle s row grant db) := by
  refine .issue hr (.issue (c.tape.uuid 0) (c.tape.hash P 0) session.id grant row.oidcNonce
    s.upstreamAuthTime (c.tape.now 1) 60 (some s)) rfl ?_
    ((sameRows_insert _ (by simp)).trans (sameRows_update _ _ (by simp)))
  unfold approvedRows
  rw [Db.update_rows_ne _ _ _ (by decide), Db.insert_rows_self]

theorem change_exchange {r : Reply} {raw : String} (hI : (layout P).Integrity db)
    (hc : c.call.exchangeOf = some raw) (h : (program P c).run db = (r, db')) :
    CredentialChange P c db r db' := by
  rcases exchange_run hc h with ⟨e, rfl, rfl⟩ | ⟨a, x, _, rfl, rfl, hrun⟩
  · exact .same rfl (.refl _ _)
  rcases exchangeBound_run hrun with ⟨e, rfl, rfl⟩ | ⟨seen, code, session, hp, hend⟩
  · exact .same rfl (.refl _ _)
  obtain ⟨rfl, hshown⟩ := hp.row hI
  rcases hend with ⟨hconsumed, rfl, rfl⟩ | ⟨hredeem, rfl, rfl⟩
  · exact .replayCode _ hc seen session hshown hconsumed
  · exact .exchange _ hc seen session hshown hredeem

theorem change_rotate {r : Reply} {raw : String} (hgood : (contract P).Good c db)
    (hc : c.call.rotationOf = some raw) (h : (program P c).run db = (r, db')) :
    CredentialChange P c db r db' := by
  rcases rotate_run hc h with ⟨e, rfl, rfl⟩ | ⟨a, x, _, rfl, rfl, hrun⟩
  · exact .same rfl (.refl _ _)
  rcases rotateBound_run hrun with ⟨e, rfl, rfl⟩ | ⟨seen, member, family, session, hp, hend⟩
  · exact .same rfl (.refl _ _)
  obtain ⟨rfl, hshown⟩ := hp.rows hgood.inv
  rcases hend with ⟨_, rfl, rfl⟩ | ⟨hrotate, successor, hs, rfl, rfl⟩
  · rw [← hshown.ofGrant]
    exact .revoke family hshown.grant rfl
  · -- the id read back is the one just drawn
    have hnew : successor = c.tape.uuid 0 := by
      unfold successorOf at hs
      rw [Db.insert_rows_self] at hs
      have hfind := find_inserted (x := .issue (c.tape.uuid 0) member.familyId
        (c.tape.hash P 0) (c.tape.now 0)) hgood.fresh rfl
      have hs' : Option.map MemberRow.id (some (MemberRow.issue (c.tape.uuid 0)
          member.familyId (c.tape.hash P 0) (c.tape.now 0))) = some successor := hfind ▸ hs
      exact (Option.some.inj hs').symm
    subst hnew
    rw [← hshown.ofGrant]
    exact .rotate _ hc member family session hshown hrotate

/-- **Every call makes one of the changes.** -/
theorem credentialChange {r : Reply} (hgood : (contract P).Good c db)
    (h : (program P c).run db = (r, db')) : CredentialChange P c db r db' := by
  have hframe : r.granted = none → (∀ t ∈ [Table.providerSessions, .authorizationCodes,
      .refreshFamilies, .refreshTokenMembers], t ∉ c.call.writes) →
      CredentialChange P c db r db' :=
    fun hr hw => .same hr (sameRows_frame h hw)
  obtain ⟨call, t⟩ := c
  cases call with
  | createProviderSession user lifetime =>
      obtain ⟨x, hx, rfl⟩ := run_of_map h
      rcases createProviderSession_run hx with ⟨e, rfl, rfl⟩ | ⟨seconds, _, rfl, rfl⟩
      · exact .same rfl (.refl _ _)
      · exact .login rfl _ rfl (Db.insert_rows_self ..) (sameRows_insert _ (by simp))
  | issueAuthorizationCode session grant lifetime =>
      obtain ⟨x, hx, rfl⟩ := run_of_map h
      rcases issueAuthorizationCode_run hx with ⟨e, rfl, rfl⟩ | ⟨seconds, s, _, _, _, rfl, rfl⟩
      · exact .same rfl (.refl _ _)
      · exact .issue rfl _ rfl (Db.insert_rows_self ..) (sameRows_insert _ (by simp))
  | exchangeCode => exact change_exchange hgood.inv rfl h
  | exchangeCodeRequest => exact change_exchange hgood.inv rfl h
  | rotateRefresh => exact change_rotate hgood rfl h
  | rotateRefreshRequest => exact change_rotate hgood rfl h
  | revokeRefresh raw clientId =>
      obtain ⟨x, hx, rfl⟩ := run_of_map h
      rcases revokeRefresh_run hx with
        ⟨rfl, rfl, _⟩ | ⟨seen, hfound, _, ⟨rfl, rfl⟩ | ⟨rfl, rfl⟩⟩
      · exact .same rfl (.refl _ _)
      · exact .same rfl (.refl _ _)
      · obtain ⟨_, _, hf, hof⟩ := findMember_mem (m := seen.1) (f := seen.2) hfound
        rw [← hof]
        exact .revoke seen.2 hf rfl
  | logout session =>
      obtain ⟨x, hx, rfl⟩ := run_of_map h
      rcases logout_run hx with ⟨rfl, rfl⟩ | ⟨s, hs, rfl, rfl⟩
      · exact .same rfl (.refl _ _)
      · obtain ⟨hmem, hid⟩ := findSession_mem hs
        rw [← hid]
        exact change_logout hmem rfl (fun _ => ⟨_, rfl⟩) (.refl _ _)
  | finish session challenge registry =>
      obtain ⟨x, hx, rfl⟩ := run_of_map h
      obtain ⟨y, hy, rfl⟩ := run_of_map hx
      rcases finishInner_run hy with ⟨_, rfl⟩ | ⟨s, hs, _, ⟨rfl, rfl⟩ | ⟨out, rfl, rfl⟩⟩
      · exact .same rfl (.refl _ _)
      · exact .same rfl (.refl _ _)
      · obtain ⟨hmem, hid⟩ := findSession_mem hs
        rw [← hid]
        exact change_logout hmem rfl (fun _ => ⟨_, rfl⟩)
          (sameRows_update _ _ (by simp))
  | finishHint session challenge registry hint =>
      obtain ⟨y, hy, rfl⟩ := run_of_map h
      rcases finishInner_run hy with ⟨_, rfl⟩ | ⟨s, hs, _, ⟨rfl, rfl⟩ | ⟨out, rfl, rfl⟩⟩
      · exact .same rfl (.refl _ _)
      · exact .same rfl (.refl _ _)
      · obtain ⟨hmem, hid⟩ := findSession_mem hs
        rw [← hid]
        exact change_logout hmem rfl (fun _ => ⟨_, rfl⟩)
          (sameRows_update _ _ (by simp))
  | completeCallback claim identity lifetime registry =>
      obtain ⟨x, hx, rfl⟩ := run_of_map h
      rcases completeCallback_run hx with ⟨_, rfl⟩ | ⟨row, _, _, ⟨_, _, rfl⟩ | ⟨n, _, _, rfl, rfl⟩⟩
      · exact .same rfl (.refl _ _)
      · exact .same rfl (sameRows_update _ _ (by simp))
      · refine .login rfl (loginSession P t identity n (identified t identity (t.now 0) db).1) rfl
          ?_ fun u hu => ?_
        · unfold loggedInRows
          rw [Db.update_rows_ne _ _ _ (by decide), Db.insert_rows_self,
            identified_rows (by simp)]
        · simp only [List.mem_cons, List.not_mem_nil, or_false] at hu
          unfold loggedInRows
          rcases hu with rfl | rfl | rfl <;>
            rw [Db.update_rows_ne _ _ _ (by decide), Db.insert_rows_ne _ _ (by decide),
              identified_rows (by simp)]
  | approve session handle registry =>
      obtain ⟨x, hx, rfl⟩ := run_of_map h
      rcases approve_run hx with ⟨_, rfl⟩ | ⟨s, row, pending, grant, _, _, _, _, rfl, rfl⟩
      · exact .same rfl (.refl _ _)
      · exact change_approve rfl
  | approvePreAuthorized session handle registry =>
      obtain ⟨x, hx, rfl⟩ := run_of_map h
      rcases approvePreAuthorized_run hx with
        ⟨_, rfl⟩ | ⟨s, row, pending, _, _, ⟨_, rfl⟩ | ⟨grant, _, _, _, _, rfl, rfl⟩⟩
      · exact .same rfl (.refl _ _)
      · exact .same rfl (.refl _ _)
      · exact change_approve rfl
  | _ =>
      obtain ⟨x, _, rfl⟩ := run_of_map h
      exact hframe rfl (by simp [Call.writes])

/-! ## 3. Grants -/

theorem Call.not_both {c : Call} {raw raw' : String} (h : c.exchangeOf = some raw) :
    c.rotationOf ≠ some raw' := by
  intro h'
  cases c <;> simp [Call.exchangeOf, Call.rotationOf] at h h'

/-- **A granted rotation**: the token was unused, its family and its session were live. -/
theorem CredentialChange.rotated {r : Reply} {raw : String} {x : ExchangeResult}
    (h : CredentialChange P c db r db') (hc : c.call.rotationOf = some raw)
    (hr : r.granted = some x) :
    ∃ member family session, TokenShown P raw db member family session ∧
      member.Rotatable family session (c.tape.now 0) ∧
      x = rotatedResult c.tape family.sessionId family session ∧
      db' = rotatedRows P c.tape family.id member.id (c.tape.uuid 0) db := by
  cases h with
  | same hn | login hn | issue hn | revoke _ _ hn | logout _ _ hn =>
      rw [hn] at hr
      cases hr
  | replayCode => cases hr
  | exchange raw' hc' => exact absurd hc (Call.not_both hc')
  | rotate raw' hc' member family session hshown hrotate =>
      cases hc'.symm.trans hc
      cases hr
      exact ⟨member, family, session, hshown, hrotate, rfl, rfl⟩

/-- **A granted exchange**: the code was unused and in time, its session was live. -/
theorem CredentialChange.exchanged {r : Reply} {raw : String} {x : ExchangeResult}
    (h : CredentialChange P c db r db') (hc : c.call.exchangeOf = some raw)
    (hr : r.granted = some x) :
    ∃ code session, CodeShown P raw db code session ∧
      code.Redeemable session (c.tape.now 0) ∧ x = exchangedResult c.tape code session ∧
      db' = exchangedRows P c.tape code session db := by
  cases h with
  | same hn | login hn | issue hn | revoke _ _ hn | logout _ _ hn =>
      rw [hn] at hr
      cases hr
  | replayCode => cases hr
  | rotate raw' hc' => exact absurd hc' (Call.not_both hc)
  | exchange raw' hc' code session hshown hredeem =>
      cases hc'.symm.trans hc
      cases hr
      exact ⟨code, session, hshown, hredeem, rfl, rfl⟩

/-- The rows of a table after an update are later versions. -/
theorem origin_update {t : Table} {p : Row t → Bool} {set : Row t → Row t}
    (hset : ∀ r, Row.Later r (set r)) :
    ∀ r ∈ (db.update t p set).rows t, ∃ x ∈ db.rows t, Row.Later x r := by
  intro r hr
  rw [Db.update_rows_self] at hr
  obtain ⟨x, hx, rfl⟩ := List.mem_map.mp hr
  refine ⟨x, hx, ?_⟩
  split
  · exact hset x
  · exact Row.later_refl x

theorem FamilyRow.later_revoke (f : FamilyRow) (now : Time) : f.Later (f.revoke now) :=
  ⟨rfl, .coalesce _ _⟩

/-- **A family comes from a family, or from the exchange of its code.** -/
theorem CredentialChange.family_origin {r : Reply} (h : CredentialChange P c db r db') :
    ∀ f ∈ db'.rows .refreshFamilies, (∃ x ∈ db.rows .refreshFamilies, FamilyRow.Later x f) ∨
      ∃ raw code session, c.call.exchangeOf = some raw ∧ CodeShown P raw db code session ∧
        code.Redeemable session (c.tape.now 0) ∧ code.issueRefreshToken = true ∧
        f = .descend (c.tape.uuid 0) code.toCodeRow session (c.tape.now 0) := by
  intro f hf
  have hsame : db'.rows .refreshFamilies = db.rows .refreshFamilies →
      ∃ x ∈ db.rows .refreshFamilies, FamilyRow.Later x f := fun e =>
    ⟨f, e ▸ hf, ⟨rfl, .refl _⟩⟩
  cases h with
  | same hr h => exact Or.inl (hsame (h _ (by simp)))
  | login hr s hs hrows h => exact Or.inl (hsame (h _ (by simp)))
  | issue hr code hc hrows h => exact Or.inl (hsame (h _ (by simp)))
  | exchange raw hc code session hshown hredeem =>
      unfold exchangedRows at hf hsame
      by_cases hissue : code.issueRefreshToken = true
      · simp only [hissue, if_true] at hf
        rw [Db.insert_rows_ne _ _ (by decide), Db.insert_rows_self,
          Db.update_rows_ne _ _ _ (by decide)] at hf
        rcases List.mem_append.mp hf with hf | hf
        · exact Or.inl ⟨f, hf, rfl, .refl _⟩
        · exact Or.inr ⟨raw, code, session, hc, hshown, hredeem, hissue,
            List.mem_singleton.mp hf⟩
      · rw [if_neg hissue] at hsame
        exact Or.inl (hsame (Db.update_rows_ne _ _ _ (by decide)))
  | replayCode =>
      exact Or.inl
        (origin_update (t := .refreshFamilies) (fun f => FamilyRow.later_revoke f _) f hf)
  | rotate =>
      refine Or.inl (hsame ?_)
      unfold rotatedRows
      rw [Db.update_rows_ne _ _ _ (by decide), Db.insert_rows_ne _ _ (by decide)]
  | revoke =>
      exact Or.inl
        (origin_update (t := .refreshFamilies) (fun f => FamilyRow.later_revoke f _) f hf)
  | logout session hs hr now set hset hsessions hfamilies h =>
      rw [hfamilies] at hf
      refine Or.inl (origin_update (t := .refreshFamilies) (fun f => ?_) f hf)
      obtain ⟨at_, e⟩ := hset f
      rw [e]
      exact FamilyRow.later_revoke f at_

/-! ## 4. What every change keeps -/

/-- **What every change keeps, every call keeps.** -/
theorem kept_of_change {I : Db → Prop}
    (h : ∀ c a r b, (contract P).Good c a → CredentialChange P c a r b → I a → I b) :
    Kept (contract P) (program P) I := fun c db hgood hI =>
  h c db _ _ hgood (credentialChange hgood rfl) hI

/-- The call of an entry made one of the changes. -/
theorem entry_change {M : Machine schema Request Reply} {e : Entry} (h : Reachable P M)
    (he : e ∈ M.log) : CredentialChange P e.call e.before e.reply e.after := by
  obtain ⟨hgood, hrun⟩ := reachable_entry (lawful P) h he
  exact credentialChange hgood hrun

/-- **What holds of a row and of all its later versions holds for ever.** -/
theorem kept_row {t : Table} {Q : Row t → Prop} (hQ : ∀ r r', Row.Later r r' → Q r → Q r') :
    Kept (contract P) (program P) fun db => ∃ r ∈ db.rows t, Q r := by
  rintro c db hgood ⟨r, hr, hq⟩
  obtain ⟨held, hallowed⟩ := run_allowed (program_keeps P c) hgood
  obtain ⟨r', hr', hl⟩ := (hallowed.rely [] fun _ hk => absurd hk List.not_mem_nil).later hr
  exact ⟨r', hr', hQ r r' hl hq⟩

/-- A random id was drawn by one call. -/
theorem entry_of_uuid {M : Machine schema Request Reply} {e e' : Entry} {i j : Fin 2}
    (h : Reachable P M) (he : e ∈ M.log) (he' : e' ∈ M.log)
    (hid : e.call.tape.uuid i = e'.call.tape.uuid j) : e = e' := by
  by_contra hne
  exact entries_compat (lawful P) h he he' hne (.id (e.call.tape.uuid i)) ⟨i, rfl⟩ ⟨j, hid⟩

/-- **Rows a call found have later versions in the end.** -/
theorem entry_progress {M : Machine schema Request Reply} {e : Entry} (h : Reachable P M)
    (he : e ∈ M.log) : Progress e.before M.db := fun _ r hr =>
  kept_since (lawful P) (kept_row fun _ _ hl hx => Row.later_trans hx hl) h he
    ⟨r, hr, Row.later_refl r⟩

/-- So have the rows it left. -/
theorem entry_progress_after {M : Machine schema Request Reply} {e : Entry} (h : Reachable P M)
    (he : e ∈ M.log) : Progress e.after M.db := fun _ r hr =>
  kept_after (lawful P) (kept_row fun _ _ hl hx => Row.later_trans hx hl) h he
    ⟨r, hr, Row.later_refl r⟩

/-- The rows of every reachable machine have their integrity. -/
theorem reachable_integrity {M : Machine schema Request Reply} (h : Reachable P M) :
    (layout P).Integrity M.db := ((serial_reachable (lawful P) h).atomic.good (lawful P)).1

end Eri
