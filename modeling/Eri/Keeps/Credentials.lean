/-
  File:      Eri/Keeps/Credentials.lean
  Subject:   Every call of the credential store and the logout store keeps to the contract.

  The shape of each proof is the program's: a lookup by columns that never change, the session
  lock, the locks of the rows the call will change, the checks, the writes. What a later
  statement needs is that the locked rows are still there (`K`), and of the rows nobody locked
  that their integrity (`Row.Ok`) leads to a locked one.
-/
import Eri.Store

namespace Eri

open Sql

variable {P : Platform} {c : Request} {ρ α : Type} {m : Option (Mark schema ρ)}
  {K : Db → Prop} {l : Local schema}

/-! ## 1. Rows found by a column -/

abbrev UpdateOk (P : Platform) (c : Request) (t : Table) (d : Db) (r r' : Row t) : Prop :=
  Calls.UpdateOk (S := schema) (t := t) (calls P) c d r r'

theorem find_by_key {db : Db} (h : (layout P).Integrity db) {t : Table} {r : Row t}
    (hr : r ∈ db.rows t) {p : Row t → Bool} (hp : p r = true)
    (hk : ∀ x, p x = true → Row.key x = Row.key r) : (db.rows t).find? p = some r :=
  h.find (n := Row.keyName t (Row.key r)) (fun x hx => hk x hx ▸ Row.keyName_mem x) hr hp

theorem same_key {db : Db} (h : (layout P).Integrity db) {t : Table} {r r' : Row t}
    (hr : r ∈ db.rows t) (hr' : r' ∈ db.rows t) (hk : Row.key r = Row.key r') : r = r' :=
  h.key_inj hr hr' hk

theorem findSession_of_mem {db : Db} (h : (layout P).Integrity db) {s : SessionRow}
    (hs : s ∈ db.rows .providerSessions) : findSession db s.id = some s :=
  find_by_key h (t := .providerSessions) hs (decide_eq_true rfl) fun _ hx =>
    of_decide_eq_true hx

/-- The row a statement picks by its key. -/
theorem hit_by_key {t : Table} {p : Row t → Bool} {row : Row t} {d : Db}
    (hclean : (l.now.eff d).rows t = d.rows t) (hd : (layout P).Integrity d) (hr : row ∈ d.rows t)
    (hp : p row = true) (hk : ∀ x, p x = true → Row.key x = Row.key row) :
    l.hit d t p = [row] := by
  unfold Local.hit
  rw [hclean]
  exact hd.filter (n := Row.keyName t (Row.key row))
    (fun x hx => hk x hx ▸ Row.keyName_mem x) hr hp

/-- `SELECT … WHERE id = … FOR UPDATE`. -/
theorem sound_lockKey {t : Table} {p : Row t → Bool} {r : ρ} {k : Row t → Tx schema ρ}
    (id : Uuid) (hp : ∀ x, p x = true → Row.key x = id)
    (hclean : ∀ d, (l.now.eff d).rows t = d.rows t)
    (hk : ∀ db row, Finds (calls P) c K l db → row ∈ db.rows t → p row = true →
      (k row).Sound (contract P) c m (fun d => K d ∧ row ∈ d.rows t)
        (l.lock [.row t (Row.key row)])) :
    (lockOr t p r k).Sound (contract P) c m K l :=
  sound_lockOr (Row.keyName t id) (fun x hx => hp x hx ▸ Row.keyName_mem x) hclean hk

/-- The insert of a row with names of its own. -/
theorem insertOk_drawn {t : Table} {row : Row t} {d : Db} {held : List Lock}
    (hf : (calls P).Fresh c d) (hclean : (l.now.eff d).rows t = d.rows t)
    (hdraws : ∀ n ∈ Row.names row, c.draws P n)
    (hok : Row.Ok ((l.now.eff d).insert t row) row) (hg : ∀ k ∈ Row.guard P row, k ∈ held) :
    Calls.InsertOk (calls P) c held (l.now.eff d) row where
  new r hr n hn hn' := by
    rw [hclean] at hr
    exact hf t r hr n hn (hdraws n hn')
  ok := hok
  owns n hn := Or.inl (hdraws n hn)
  guard := hg

theorem draws_id (i : Fin 2) : c.draws P (.id (c.tape.uuid i)) := ⟨i, rfl⟩

theorem draws_hash (k : Fin 4) : c.draws P (.hash (c.tape.hash P k)) := ⟨k, rfl⟩

/-- A row of another call has none of this call's ids. -/
theorem fresh_key {db : Db} (h : (calls P).Fresh c db) {t : Table} {r : Row t}
    (hr : r ∈ db.rows t) (ht : t ≠ .externalIdentities ∧ t ≠ .userProfiles) (i : Fin 2) :
    Row.key r ≠ c.tape.uuid i := by
  intro e
  have hn := Row.keyName_mem r
  refine h t r hr _ hn ?_
  rw [e]
  cases t <;> simp_all [Row.keyName, calls, Request.draws]

/-! ## 2. Sessions and codes -/

theorem keeps_createProviderSession (user : AuthenticatedUser) (lifetime : Duration) :
    (createProviderSession P c.tape user lifetime).tx.Keeps (contract P) c := by
  refine sound_checked fun seconds hs => ?_
  refine sound_insert (fun _ _ _ _ _ _ => rfl) (fun db hf => ?_) fun db hf => sound_commit ..
  refine insertOk_drawn hf.good.fresh rfl (fun n hn => ?_) ?_ fun k hk => by cases hk
  · rcases List.mem_cons.mp hn with rfl | hn
    · exact draws_id 0
    · rw [List.mem_singleton] at hn
      subst hn
      exact draws_hash 0
  · exact Time.after_le (boundedSeconds_le hs)

theorem keeps_findProviderSession (raw : String) :
    (findProviderSession P c.tape raw).tx.Keeps (contract P) c :=
  sound_selectOr_last fun _ => rfl

/-- A read of the locked session. -/
theorem sound_readSession {sessionId : Uuid} {f : SessionRow → α} {r : ρ}
    {k : α → Tx schema ρ} (s : SessionRow) (hid : s.id = sessionId)
    (hsess : ∀ d, (l.now.eff d).rows .providerSessions = d.rows .providerSessions)
    (hK : ∀ d, K d → s ∈ d.rows .providerSessions)
    (hk : (k (f s)).Sound (contract P) c m K l) :
    (selectOr (fun db => (findSession db sessionId).map f) r k).Sound (contract P) c m K l := by
  have hfind : ∀ d, (contract P).Good c d → K d →
      (findSession (l.now.eff d) sessionId).map f = some (f s) := fun d hd hKd => by
    have := findSession_of_mem hd.inv (hK d hKd)
    rw [hid, findSession, ← hsess d] at this
    exact congrArg (Option.map f) this
  refine sound_selectOr (fun db d a hf hd hKd _ ha => ?_) fun db a hf ha => ?_
  · rw [hfind d hd hKd, ← ha, hfind db hf.good hf.known]
  · rw [hfind db hf.good hf.known, Option.some.injEq] at ha
    subst ha
    exact sound_weaken (fun d h => h.1) hk

theorem sound_insertAuthorizationCode {sessionId : Uuid} {grant : ValidatedAuthorizationGrant}
    {nonce : Option String} {upstream : Option Time} {seconds : Nat} {now : Time}
    {k : String → Tx schema ρ} (s : SessionRow) (hid : s.id = sessionId)
    (hup : s.upstreamAuthTime = upstream) (hsec : seconds ≤ 60)
    (hsess : ∀ d, (l.now.eff d).rows .providerSessions = d.rows .providerSessions)
    (hclean : ∀ d, (l.now.eff d).rows .authorizationCodes = d.rows .authorizationCodes)
    (hK : ∀ d, K d → s ∈ d.rows .providerSessions)
    (hk : ∀ row : AuthorizationCodeRow, (k (c.tape.secret 0)).Sound (contract P) c m K
      ((l.lock [.row .authorizationCodes row.id]).write fun d =>
        d.insert .authorizationCodes row)) :
    (insertAuthorizationCode P c.tape sessionId grant nonce upstream seconds now k).Sound
      (contract P) c m K l := by
  have hfind : ∀ d, (contract P).Good c d → K d →
      findSession (l.now.eff d) sessionId = some s := fun d hd hKd => by
    have := findSession_of_mem hd.inv (hK d hKd)
    rwa [hid, findSession, ← hsess d] at this
  refine sound_insert (fun db d hf hd hKd _ => ?_) (fun db hf => ?_) fun db hf => hk _
  · simp only [hfind d hd hKd, hfind db hf.good hf.known]
  · refine insertOk_drawn hf.good.fresh (hclean db) (fun n hn => ?_) ?_ fun k hk => by cases hk
    · rcases List.mem_cons.mp hn with rfl | hn
      · exact draws_id 0
      · rw [List.mem_singleton] at hn
        subst hn
        exact draws_hash 0
    · simp only [hfind db hf.good hf.known]
      refine ⟨?_, grant.refresh_iff, s, ?_, hid, hup, min_le_right ..⟩
      · exact (min_le_left ..).trans (Time.after_le hsec)
      · rw [Db.insert_rows_ne _ _ (by decide), hsess]
        exact hK db hf.known

theorem keeps_issueAuthorizationCode (session : ProviderSession)
    (grant : ValidatedAuthorizationGrant) (lifetime : Duration) :
    (issueAuthorizationCode P c.tape session grant lifetime).tx.Keeps (contract P) c := by
  refine sound_checked fun seconds hsec => ?_
  refine sound_lockKey session.id (fun x hx => of_decide_eq_true hx) (fun _ => rfl)
    fun _ s _ _ hp => ?_
  have hid : SessionRow.id s = session.id := of_decide_eq_true hp
  refine sound_readSession s hid (fun _ => rfl) (fun d h => h.2) (sound_ensure fun _ => ?_)
  refine sound_readSession s hid (fun _ => rfl) (fun d h => h.2) (sound_checked fun _ _ => ?_)
  refine sound_insertAuthorizationCode s hid rfl (boundedSeconds_le hsec) (fun _ => rfl)
    (fun _ => rfl) (fun d h => h.2) fun row => ?_
  exact sound_checked fun _ _ => sound_commit ..

/-! ## 3. Exchange -/

theorem later_toCodeRow {r r' : AuthorizationCodeRow} (h : r.Later r') :
    r'.toCodeRow = r.toCodeRow := by rw [h.keeps]

/-- A code looked up by its hash and by columns that never change. -/
theorem sound_findCode {p : AuthorizationCodeRow → Bool} {h : Digest} {r : ρ}
    {k : CodeRow → Tx schema ρ} (hp : ∀ x, p x = true → x.codeHash = h)
    (hl : ∀ x x' : AuthorizationCodeRow, x.Later x' → p x' = p x)
    (hclean : ∀ d, (l.now.eff d).rows .authorizationCodes = d.rows .authorizationCodes)
    (hk : ∀ code, (k code).Sound (contract P) c m K l) :
    (selectOr (fun db => ((db.rows .authorizationCodes).find? p).map (·.toCodeRow)) r k).Sound
      (contract P) c m K l := by
  refine sound_selectOr (fun db d a hf hd hKd hr ha => ?_) fun db a _ _ =>
    sound_weaken (fun d h => h.1) (hk a)
  rw [hclean] at ha ⊢
  obtain ⟨x, hx, rfl⟩ := Option.map_eq_some_iff.mp ha
  obtain ⟨x', hx', hlater⟩ := Layout.rely_find (Y := layout P) (t := .authorizationCodes)
    (p := p) (n := .hash h) hd.inv hr
    (fun y hy => by rw [← hp y hy]; exact List.mem_cons_of_mem _ List.mem_cons_self)
    (fun y y' => hl y y') hx
  exact Option.map_eq_some_iff.mpr ⟨x', hx', later_toCodeRow hlater⟩

theorem FamilyRow.Ok.revoke {db : Db} {f : FamilyRow} (h : f.Ok db) (now : Time) :
    (f.revoke now).Ok db := by
  obtain ⟨code, hc, hdesc, hcons, hissue⟩ := h.code
  exact ⟨h.lifetime, ⟨code, hc, ⟨hdesc.source, hdesc.session, hdesc.client, hdesc.scopes,
    hdesc.resource, hdesc.upstream, hdesc.binding⟩, hcons, hissue⟩, h.session⟩

theorem updateOk_revoke {d : Db} {f : FamilyRow} {now : Time} (h : f.Ok d) :
    UpdateOk P c .refreshFamilies d f (f.revoke now) where
  later := ⟨rfl, .coalesce _ _⟩
  ok := h.revoke now
  names _ hn := Or.inl hn

/-- Revoke the family of a code. -/
theorem sound_revokeSource {code : AuthorizationCodeRow} {now : Time}
    {k : List FamilyRow → Tx schema ρ}
    (hK : ∀ d, K d → code ∈ d.rows .authorizationCodes)
    (hlock : (.row .providerSessions code.sessionId : Lock) ∈ l.now.held)
    (hclean : ∀ d, (l.now.eff d).rows .refreshFamilies = d.rows .refreshFamilies)
    (hk : ∀ fs l', (k fs).Sound (contract P) c m K l') :
    (update .refreshFamilies (fun f => f.sourceCodeId = code.id) (.revoke now) k).Sound
      (contract P) c m K l := by
  refine sound_update_guarded (fun f f' h => ?_) (fun d hd hKd f hf hp => ?_)
    (fun d => ?_) (fun db f hfind hf => ?_) fun db _ => hk _ _
  · rw [FamilyRow.Later.keeps h]
  · -- the family descends from the locked code, so from the locked session
    obtain ⟨c', hc', hdesc, _, _⟩ := (hd.inv.ok .refreshFamilies f hf).code
    have e : c' = code := same_key hd.inv hc' (hK d hKd)
      (hdesc.source.symm.trans (of_decide_eq_true hp))
    refine ⟨_, List.mem_singleton_self _, ?_⟩
    rw [hdesc.session, e]
    exact hlock
  · unfold Local.hit
    rw [hclean]
  · have hok := hfind.view.ok .refreshFamilies f (List.mem_filter.mp hf).1
    exact ⟨updateOk_revoke hok, fun n hn => hn⟩

/-- The update of a locked row, found by its key. -/
theorem sound_updateLocked {t : Table} {p : Row t → Bool} {set : Row t → Row t}
    {k : List (Row t) → Tx schema ρ} (row : Row t) (hp : p row = true)
    (hkey : ∀ x, p x = true → Row.key x = Row.key row)
    (hclean : ∀ d, (l.now.eff d).rows t = d.rows t) (hK : ∀ d, K d → row ∈ d.rows t)
    (hw : ∀ db, Finds (calls P) c K l db → UpdateOk P c t (l.now.eff db) row (set row))
    (hk : (k [set row]).Sound (contract P) c m K (l.updated t p set [Row.key row])) :
    (update t p set k).Sound (contract P) c m K l :=
  sound_update_row row (fun d hd hKd => hit_by_key (hclean d) hd.inv (hK d hKd) hp hkey) hw hk

theorem sound_insertRefresh {j : Fin 2} {familyId : Uuid} {now : Time}
    {k : String → Tx schema ρ}
    (hclean : ∀ d, (l.now.eff d).rows .refreshTokenMembers = d.rows .refreshTokenMembers)
    (hf : ∀ d, Finds (calls P) c K l d →
      ∃ f ∈ (l.now.eff d).rows .refreshFamilies, FamilyRow.id f = familyId)
    (hk : (k (c.tape.secret 0)).Sound (contract P) c m K
      ((l.lock [.row .refreshTokenMembers (c.tape.uuid j)]).write fun d =>
        d.insert .refreshTokenMembers
          (.issue (c.tape.uuid j) familyId (c.tape.hash P 0) now))) :
    (insertRefresh P c.tape j familyId now k).Sound (contract P) c m K l := by
  refine sound_insert (fun _ _ _ _ _ _ => rfl) (fun db hfind => ?_) fun db _ => hk
  refine insertOk_drawn hfind.good.fresh (hclean db) (fun n hn => ?_) ⟨?_, rfl⟩
    fun k hk => by cases hk
  · rcases List.mem_cons.mp hn with rfl | hn
    · exact draws_id j
    · rw [List.mem_singleton] at hn
      subst hn
      exact draws_hash 0
  · obtain ⟨f, hmem, e⟩ := hf db hfind
    exact ⟨f, by rwa [Db.insert_rows_ne _ _ (by decide)], e⟩

/-- The family of a code that was just consumed. -/
theorem sound_createFamily {code : AuthorizationCodeRow} {session : SessionRow} {now : Time}
    {k : String → Tx schema ρ}
    (hcode : ∀ d, K d → code ∈ d.rows .authorizationCodes)
    (hopen : ∀ d, K d → code.consumedAt = none) (hissue : code.issueRefreshToken = true)
    (hsess : ∀ d, K d → session ∈ d.rows .providerSessions)
    (hid : session.id = code.sessionId)
    (hlock : (.row .providerSessions code.sessionId : Lock) ∈ l.now.held)
    (hview : ∀ d, K d → code.consume now ∈ (l.now.eff d).rows .authorizationCodes)
    (hs : ∀ d, (l.now.eff d).rows .providerSessions = d.rows .providerSessions)
    (hf : ∀ d, (l.now.eff d).rows .refreshFamilies = d.rows .refreshFamilies)
    (hm : ∀ d, (l.now.eff d).rows .refreshTokenMembers = d.rows .refreshTokenMembers)
    (hk : ∀ l', (k (c.tape.secret 0)).Sound (contract P) c m K l') :
    (createFamily P c.tape code.toCodeRow session now k).Sound (contract P) c m K l := by
  refine sound_insert (fun _ _ _ _ _ _ => rfl) (fun db hfind => ⟨?_, ?_, ?_, ?_⟩)
    fun db hfind => sound_insertRefresh (fun d => ?_) (fun d hd => ?_) (hk _)
  · -- no family descends from a code that is not consumed
    intro f hfm n hn hn'
    rw [hf] at hfm
    rcases List.mem_cons.mp hn' with rfl | hn'
    · exact hfind.good.fresh .refreshFamilies f hfm _ hn (draws_id (P := P) 0)
    · rw [List.mem_singleton] at hn'
      subst hn'
      obtain ⟨code', hc', hdesc, hcons, _⟩ := (hfind.inv.ok .refreshFamilies f hfm).code
      have hsrc : code.id = f.sourceCodeId := by
        simpa [Row.names, FamilyRow.descend] using hn
      have e : code' = code := same_key hfind.inv hc' (hcode db hfind.known)
        (hdesc.source.symm.trans hsrc.symm)
      rw [e, hopen db hfind.known] at hcons
      cases hcons
  · refine ⟨min_le_left .., ⟨code.consume now, ?_, ⟨rfl, rfl, rfl, rfl, rfl, rfl, rfl⟩, rfl,
      hissue⟩, session, ?_, hid, rfl, min_le_right ..⟩
    · rw [Db.insert_rows_ne _ _ (by decide)]
      exact hview db hfind.known
    · rw [Db.insert_rows_ne _ _ (by decide), hs]
      exact hsess db hfind.known
  · intro n hn
    rcases List.mem_cons.mp hn with rfl | hn
    · exact Or.inl (draws_id (P := P) 0)
    · rw [List.mem_singleton] at hn
      subst hn
      exact Or.inr fun c' h => h
  · intro k hk
    obtain rfl := List.mem_singleton.mp hk
    exact hlock
  · rw [Local.write_eff, Db.insert_rows_ne _ _ (by decide)]
    exact hm d
  · refine ⟨.descend (c.tape.uuid 0) code.toCodeRow session now, ?_, rfl⟩
    rw [Local.write_eff, Db.insert_rows_self]
    exact List.mem_append_right _ List.mem_cons_self

theorem AuthorizationCodeRow.Ok.consume {db : Db} {code : AuthorizationCodeRow}
    (h : code.Ok db) (now : Time) : (code.consume now).Ok db := ⟨h.lifetime, h.refresh, h.session⟩

theorem updateOk_consume {d : Db} {code : AuthorizationCodeRow} {now : Time} (h : code.Ok d)
    (hopen : code.consumedAt = none) :
    UpdateOk P c .authorizationCodes d code (code.consume now) where
  later := ⟨rfl, by rw [hopen]; exact .none _⟩
  ok := h.consume now
  names _ hn := Or.inl hn

theorem not_isSome {α : Type} {a : Option α} (h : ¬a.isSome = true) : a = none := by
  simpa using h

/-- The rows of the other tables after an update. -/
theorem updated_rows_ne {t u : Table} (p : Row t → Bool) (set : Row t → Row t)
    (keys : List Uuid) (d : Db) (hu : u ≠ t) :
    ((l.updated t p set keys).now.eff d).rows u = (l.now.eff d).rows u := by
  unfold Local.updated
  split
  · rfl
  · exact Db.update_rows_ne _ _ _ hu

/-- A row after an update of it alone. -/
theorem updated_mem {t : Table} {p : Row t → Bool} {set : Row t → Row t} {row : Row t} {d : Db}
    (hr : row ∈ (l.now.eff d).rows t) (hp : p row = true) :
    set row ∈ ((l.updated t p set [Row.key row]).now.eff d).rows t := by
  have e : (p row && decide (schema.key row ∈ [Row.key row])) = true := by
    rw [hp, Bool.true_and]
    exact decide_eq_true List.mem_cons_self
  have : (l.updated t p set [Row.key row]).now.eff d =
      (l.now.eff d).update t (fun r => p r && decide (schema.key r ∈ [Row.key row])) set := rfl
  rw [this, Db.update_rows_self]
  refine List.mem_map.mpr ⟨row, hr, ?_⟩
  rw [if_pos e]

theorem updated_held {t : Table} {p : Row t → Bool} {set : Row t → Row t} {keys : List Uuid}
    {k : Lock} (h : k ∈ l.now.held) : k ∈ (l.updated t p set keys).now.held := by
  unfold Local.updated
  split
  · exact h
  · exact List.mem_append_right _ h

theorem keeps_exchangeCodeBound (i : Nat) (raw clientId redirectUri resource verifier : String)
    (registry : Option ClientRegistry) (K : Db → Prop) :
    (exchangeCodeBound P c.tape i raw clientId redirectUri resource verifier registry
      Empty.elim).Sound (contract P) c none K .init := by
  refine sound_findCode (h := secretHash P raw) (fun x hx => of_decide_eq_true hx)
    (fun x x' h => by rw [h.keeps]) (fun _ => rfl) fun code => sound_ensure fun _ => ?_
  refine sound_lockKey code.sessionId (fun x hx => of_decide_eq_true hx) (fun _ => rfl)
    fun _ session _ _ hsid => ?_
  refine sound_lockKey code.id (fun x hx => of_decide_eq_true hx) (fun _ => rfl)
    fun _ locked _ _ hlid => ?_
  refine sound_lockKey code.id (fun x hx => of_decide_eq_true hx) (fun _ => rfl)
    fun db current hfind hmem hcid => sound_ensure fun hsame => ?_
  have hsid : session.id = code.sessionId := of_decide_eq_true hsid
  have e : locked = current := same_key hfind.inv hfind.known.2 hmem
    ((of_decide_eq_true hlid).trans (of_decide_eq_true hcid).symm)
  subst e
  have hlock : (.row .providerSessions locked.sessionId : Lock) ∈
      ((((Local.init : Local schema).lock
        [.row .providerSessions (Row.key (t := .providerSessions) session)]).lock
        [.row .authorizationCodes (Row.key (t := .authorizationCodes) locked)]).lock
        [.row .authorizationCodes (Row.key (t := .authorizationCodes) locked)]).now.held := by
    rw [hsame.1, ← hsid]
    simp [Row.key]
  refine sound_checked fun _ _ => sound_checked fun _ _ => sound_checked fun _ _ => ?_
  split
  · exact sound_revokeSource (fun d h => h.2) hlock (fun _ => rfl)
      fun _ _ => sound_checked fun _ _ => sound_commit ..
  · rename_i hopen
    have hopen := not_isSome hopen
    refine sound_ensure fun _ => ?_
    refine sound_updateLocked (t := .authorizationCodes) locked (decide_eq_true rfl)
      (fun x hx => of_decide_eq_true hx) (fun _ => rfl) (fun d h => h.2) (fun db hfind => ?_) ?_
    · exact updateOk_consume (hfind.inv.ok .authorizationCodes locked hfind.known.2) hopen
    · beta_reduce
      split
      · rename_i hissue
        refine sound_createFamily (fun d h => h.2) (fun _ _ => hopen) hissue (fun d h => h.1.1.2)
          (hsid.trans hsame.1.symm) (updated_held hlock) (fun d h => ?_) (fun d => ?_)
          (fun d => ?_) (fun d => ?_) fun _ => sound_checked fun _ _ => sound_commit ..
        · have hmem : locked ∈ d.rows .authorizationCodes := h.2
          exact updated_mem (t := .authorizationCodes) hmem (decide_eq_true rfl)
        · exact updated_rows_ne _ _ _ d (by decide)
        · exact updated_rows_ne _ _ _ d (by decide)
        · exact updated_rows_ne _ _ _ d (by decide)
      · exact sound_checked fun _ _ => sound_commit ..

theorem keeps_exchangeCodeRequest (raw clientId redirectUri : String)
    (resource : Option String) (verifier : String) (scopes : Option (List String))
    (registry : ClientRegistry) :
    (exchangeCodeRequest P c.tape raw clientId redirectUri resource verifier scopes
      registry).tx.Keeps (contract P) c := by
  have hp : ∀ x : AuthorizationCodeRow, (x.codeHash = secretHash P raw && x.clientId = clientId &&
      x.redirectUri = redirectUri : Bool) = true → x.codeHash = secretHash P raw := by
    intro x hx
    simp only [Bool.and_eq_true, decide_eq_true_eq] at hx
    exact hx.1.1
  refine sound_findCode hp (fun x x' h => by rw [h.keeps]) (fun _ => rfl) fun code => ?_
  refine sound_ensure fun _ => sound_checked fun _ _ => ?_
  exact keeps_exchangeCodeBound 1 raw clientId redirectUri code.resource verifier
    (some registry) _

/-! ## 4. Rotation -/

/-- A token is found again, with later versions of its member and family. -/
theorem rely_findMember {L : List Lock} {db d : Db} {h : Digest} {a : MemberRow × FamilyRow}
    (hd : (layout P).Integrity d) (hr : (layout P).Rely L db d) (ha : findMember db h = some a) :
    ∃ a', findMember d h = some a' ∧ a.1.Later a'.1 ∧ a.2.Later a'.2 := by
  simp only [findMember, Option.bind_eq_bind, Option.bind_eq_some_iff] at ha ⊢
  obtain ⟨x, hx, f, hf, e⟩ := ha
  cases e
  obtain ⟨x', hx', hlx⟩ := Layout.rely_find (Y := layout P) (t := .refreshTokenMembers)
    (n := .hash h) hd hr
    (fun y hy => by rw [← of_decide_eq_true hy]; exact List.mem_cons_of_mem _ List.mem_cons_self)
    (fun y y' h => by rw [MemberRow.Later.keeps h]) hx
  obtain ⟨f', hf', hlf⟩ := Layout.rely_find (Y := layout P) (t := .refreshFamilies)
    (n := .id x.familyId) hd hr
    (fun y hy => by rw [← of_decide_eq_true hy]; exact List.mem_cons_self)
    (fun y y' h => by rw [FamilyRow.Later.keeps h]) hf
  have e : x'.familyId = x.familyId := by rw [MemberRow.Later.keeps hlx]
  exact ⟨(x', f'), ⟨x', hx', f', by rw [e]; exact hf', rfl⟩, hlx, hlf⟩

/-- A read of a token by columns that never change. -/
theorem sound_findMember {q : Db → Option α} {h : Digest}
    {g : MemberRow × FamilyRow → Option α} {r : ρ} {k : α → Tx schema ρ}
    (hq : ∀ d, q d = (findMember d h).bind g)
    (hg : ∀ a a', a.1.Later a'.1 → a.2.Later a'.2 → g a' = g a)
    (hclean : ∀ d, q (l.now.eff d) = q d)
    (hk : ∀ a, (k a).Sound (contract P) c m K l) :
    (selectOr q r k).Sound (contract P) c m K l := by
  refine sound_selectOr (fun db d a hf hd hKd hr ha => ?_) fun db a _ _ =>
    sound_weaken (fun d h => h.1) (hk a)
  rw [hclean, hq, Option.bind_eq_some_iff] at ha ⊢
  obtain ⟨x, hx, hxa⟩ := ha
  obtain ⟨x', hx', hl₁, hl₂⟩ := rely_findMember hd.inv hr hx
  exact ⟨x', hx', (hg x x' hl₁ hl₂).trans hxa⟩

theorem updateOk_consumeMember {d : Db} {x : MemberRow} {now : Time} {successor : Uuid}
    (h : x.Ok d) (hopen : x.consumedAt = none) :
    UpdateOk P c .refreshTokenMembers d x (x.consume now successor) where
  later := by
    have hs : x.successorId = none := by simpa [hopen] using h.chained
    exact ⟨rfl, by rw [hopen]; exact .none _, by rw [hs]; exact .none _⟩
  ok := ⟨h.family, rfl⟩
  names _ hn := Or.inl hn

/-- The row of a token that was just inserted. -/
theorem find_inserted {d : Db} {x : MemberRow} (hd : (calls P).Fresh c d)
    (hx : x.tokenHash = c.tape.hash P 0) :
    (d.rows .refreshTokenMembers ++ [x]).find? (fun y => y.tokenHash = c.tape.hash P 0) =
      some x := by
  rw [List.find?_append, List.find?_eq_none.mpr fun y hy => ?_]
  · simp [hx]
  · intro h
    refine hd .refreshTokenMembers y hy (.hash (c.tape.hash P 0)) ?_ (draws_hash 0)
    rw [← of_decide_eq_true h]
    exact List.mem_cons_of_mem _ List.mem_cons_self

theorem keeps_rotateRefreshBound (raw clientId resource : String)
    (registry : Option ClientRegistry) (K : Db → Prop) :
    (rotateRefreshBound P c.tape raw clientId resource registry Empty.elim).Sound (contract P) c
      none K .init := by
  refine sound_findMember (fun d => Option.map_eq_bind) (fun a a' h₁ h₂ => ?_) (fun _ => rfl)
    fun lookup => ?_
  · rw [Function.comp, h₁.keeps, h₂.keeps]
    rfl
  refine sound_lockKey lookup.sessionId (fun x hx => of_decide_eq_true hx) (fun _ => rfl)
    fun _ session _ _ _ => ?_
  refine sound_lockKey lookup.familyId (fun x hx => of_decide_eq_true hx) (fun _ => rfl)
    fun _ family _ _ hfid => ?_
  refine sound_lockKey lookup.id (fun x hx => of_decide_eq_true hx) (fun _ => rfl)
    fun _ member _ _ hmid => ?_
  have hfid : family.id = lookup.familyId := of_decide_eq_true hfid
  have hmid : member.id = lookup.id := of_decide_eq_true hmid
  refine sound_ensure fun _ => sound_checked fun _ _ => sound_ensure fun _ =>
    sound_checked fun _ _ => ?_
  split
  · refine sound_updateLocked (t := .refreshFamilies) family (decide_eq_true hfid)
      (fun x hx => (of_decide_eq_true hx).trans hfid.symm) (fun _ => rfl) (fun d h => h.1.2)
      (fun db hfind => ?_) ?_
    · exact updateOk_revoke (hfind.inv.ok .refreshFamilies family hfind.known.1.2)
    · exact sound_checked fun _ _ => sound_commit ..
  · rename_i hopen
    have hopen := not_isSome hopen
    refine sound_ensure fun _ => ?_
    refine sound_insertRefresh (fun _ => rfl) (fun d hd => ⟨family, hd.known.1.2, hfid⟩) ?_
    have hmembers : ∀ d : Db, (d.insert .refreshTokenMembers (.issue (c.tape.uuid 0)
        lookup.familyId (c.tape.hash P 0) (c.tape.now 0))).rows .refreshTokenMembers =
        d.rows .refreshTokenMembers ++ [.issue (c.tape.uuid 0) lookup.familyId
          (c.tape.hash P 0) (c.tape.now 0)] := fun d => Db.insert_rows_self ..
    have hfind : ∀ d : Db, (calls P).Fresh c d → ((((d.insert .refreshTokenMembers (.issue
        (c.tape.uuid 0) lookup.familyId (c.tape.hash P 0) (c.tape.now 0))).rows
        .refreshTokenMembers).find? fun m => m.tokenHash = secretHash P (c.tape.secret 0)).map
        (·.id)) = some (c.tape.uuid 0) := by
      intro d hd
      rw [hmembers]
      exact congrArg (Option.map MemberRow.id) (find_inserted hd rfl)
    refine sound_selectOr (fun db d a hf hd hKd _ ha => ?_) fun db successorId hf hs => ?_
    · exact (hfind d hd.fresh).trans ((hfind db hf.good.fresh).symm.trans ha)
    refine sound_update_row (S := schema) (X := calls P) (t := .refreshTokenMembers) member
      (fun d hd hKd => ?_) (fun db hf => ?_) ?_
    · have hmem : member ∈ d.rows .refreshTokenMembers := hKd.1.2
      have hne : c.tape.uuid 0 ≠ lookup.id := fun e =>
        fresh_key (t := .refreshTokenMembers) hd.fresh hmem (by decide) 0 (hmid.trans e.symm)
      have hone := Layout.Integrity.filter (Y := layout P) (t := .refreshTokenMembers)
        (p := fun m => decide (MemberRow.id m = lookup.id)) (n := .id lookup.id) hd.inv
        (fun y hy => by rw [← of_decide_eq_true hy]; exact List.mem_cons_self) hmem
        (decide_eq_true hmid)
      unfold Local.hit
      exact (congrArg _ (hmembers d)).trans (by simp [hone, MemberRow.issue, hne])
    · exact updateOk_consumeMember (hf.view.ok .refreshTokenMembers member
        (by exact hmembers db ▸ List.mem_append_left _ hf.known.1.2)) hopen
    · exact sound_checked fun _ _ => sound_commit ..

theorem keeps_rotateRefreshRequest (raw clientId : String) (resource : Option String)
    (scopes : Option (List String)) (registry : ClientRegistry) :
    (rotateRefreshRequest P c.tape raw clientId resource scopes registry).tx.Keeps (contract P)
      c := by
  refine sound_findMember (fun d => rfl) (fun a a' h₁ h₂ => ?_) (fun _ => rfl)
    fun stored => ?_
  · rw [h₂.keeps]
  · exact sound_ensure fun _ =>
      keeps_rotateRefreshBound raw clientId stored.2 (some registry) _

/-! ## 5. Revocation -/

theorem keeps_revokeRefresh (raw clientId : String) :
    (revokeRefresh P c.tape raw clientId).tx.Keeps (contract P) c := by
  refine sound_selectWhen fun db hf => ?_
  beta_reduce
  cases ha : findMember db (secretHash P raw) with
  | none =>
      left
      rw [show (Local.init : Local schema).now.eff db = db from rfl, ha]
      rfl
  | some a =>
      right
      refine ⟨fun d hd _ hr => ?_, ?_⟩
      · obtain ⟨a', ha', h₁, h₂⟩ := rely_findMember hd.inv hr ha
        rw [show (Local.init : Local schema).now.eff d = d from rfl,
          show (Local.init : Local schema).now.eff db = db from rfl, ha, ha', Option.map_some,
          Option.map_some, h₁.keeps, h₂.keeps]
      · generalize Option.filter (fun lookup : RevocationLookup => decide (lookup.clientId =
          clientId)) _ = found
        cases found with
        | none => exact sound_commit ..
        | some lookup =>
          refine sound_lockKey lookup.sessionId (fun x hx => of_decide_eq_true hx)
            (fun _ => rfl) fun _ _ _ _ _ => ?_
          refine sound_lockKey lookup.familyId (fun x hx => of_decide_eq_true hx)
            (fun _ => rfl) fun _ family _ _ hfid => ?_
          have hfid : family.id = lookup.familyId := of_decide_eq_true hfid
          refine sound_updateLocked (t := .refreshFamilies) family (decide_eq_true hfid)
            (fun x hx => (of_decide_eq_true hx).trans hfid.symm) (fun _ => rfl)
            (fun d h => h.2) (fun db hfind => ?_) (sound_commit ..)
          exact updateOk_revoke (hfind.inv.ok .refreshFamilies family hfind.known.2)

theorem updateOk_revokeSession {d : Db} {s : SessionRow} {now : Time}
    (h : Row.Ok (t := .providerSessions) d s) :
    UpdateOk P c .providerSessions d s (s.revoke now) where
  later := ⟨rfl, .coalesce _ _⟩
  ok := h
  names _ hn := Or.inl hn

/-- Revoke the families of a locked session. -/
theorem sound_revokeFamilies {sessionId : Uuid} {set : FamilyRow → FamilyRow}
    {scan : List Uuid → List Uuid} {k : Unit → Tx schema ρ}
    (hset : ∀ f, ∃ now, set f = f.revoke now) (hscan : ∀ ks, (scan ks).Perm ks)
    (hlock : (.row .providerSessions sessionId : Lock) ∈ l.now.held)
    (hclean : ∀ d, (l.now.eff d).rows .refreshFamilies = d.rows .refreshFamilies)
    (hk : ∀ l', (k ()).Sound (contract P) c m K l') :
    (updateEach .refreshFamilies (fun f => f.sessionId = sessionId) set scan k).Sound
      (contract P) c m K l := by
  refine sound_updateEach (S := schema) (X := calls P) (t := .refreshFamilies)
    (fun f f' h => ?_) (fun f => ?_) hscan (fun d _ _ f _ hp => ?_) hclean
    (fun db f _ hok => ?_) hk
  · rw [FamilyRow.Later.keeps h]
  · obtain ⟨now, e⟩ := hset f
    rw [e]
    rfl
  · exact ⟨_, List.mem_singleton_self _, of_decide_eq_true hp ▸ hlock⟩
  · obtain ⟨now, e⟩ := hset f
    rw [e]
    exact ⟨updateOk_revoke hok, fun n hn => hn⟩

/-- Revoke a locked session and its families. -/
theorem sound_revokeSession {s : SessionRow} {sessionId : Uuid} {now : Time}
    {set : FamilyRow → FamilyRow} {scan : List Uuid → List Uuid} {k : Unit → Tx schema ρ}
    (hset : ∀ f, ∃ now, set f = f.revoke now) (hscan : ∀ ks, (scan ks).Perm ks)
    (hid : s.id = sessionId) (hlock : (.row .providerSessions sessionId : Lock) ∈ l.now.held)
    (hs : ∀ d, (l.now.eff d).rows .providerSessions = d.rows .providerSessions)
    (hf : ∀ d, (l.now.eff d).rows .refreshFamilies = d.rows .refreshFamilies)
    (hK : ∀ d, K d → s ∈ d.rows .providerSessions)
    (hk : ∀ l', (k ()).Sound (contract P) c m K l') :
    (update .providerSessions (fun s => s.id = sessionId) (.revoke now) fun _ =>
      updateEach .refreshFamilies (fun f => f.sessionId = sessionId) set scan k).Sound
      (contract P) c m K l := by
  refine sound_updateLocked (t := .providerSessions) s (decide_eq_true hid)
    (fun x hx => (of_decide_eq_true hx).trans hid.symm) hs hK (fun db hfind => ?_) ?_
  · exact updateOk_revokeSession (hfind.inv.ok .providerSessions s (hK db hfind.known))
  · refine sound_revokeFamilies hset hscan (updated_held hlock) (fun d => ?_) hk
    exact (updated_rows_ne _ _ _ d (by decide)).trans (hf d)

theorem keeps_logout (session : ProviderSession) :
    (logout c.tape session).tx.Keeps (contract P) c := by
  refine sound_lockKey session.id (fun x hx => of_decide_eq_true hx) (fun _ => rfl)
    fun _ s _ _ hp => ?_
  have hid : SessionRow.id s = session.id := of_decide_eq_true hp
  refine sound_revokeSession (k := fun _ => Tx.commit (Except.ok ())) (fun _ => ⟨_, rfl⟩)
    c.tape.scan_perm hid ?_ (fun d => ?_) (fun d => ?_) (fun d h => ?_) fun _ => trivial
  · rw [← hid]
    exact List.mem_cons_self
  · rfl
  · rfl
  · exact h.2

/-! ## 6. Logout challenges -/

theorem sound_lockSession {ε : Type} {id : Uuid} {e : ε} {k : SessionRow → Tx schema (Except ε α)}
    {m : Option (Mark schema (Except ε α))}
    (hclean : ∀ d, (l.now.eff d).rows .providerSessions = d.rows .providerSessions)
    (hk : ∀ db s, Finds (calls P) c K l db → s ∈ db.rows .providerSessions → s.id = id →
      (k s).Sound (contract P) c m (fun d => K d ∧ s ∈ d.rows .providerSessions)
        (l.lock [.row .providerSessions id])) :
    (lockSession id e k).Sound (contract P) c m K l := by
  refine sound_lockKey id (fun x hx => of_decide_eq_true hx) hclean fun db s hf hs hp => ?_
  have hid : SessionRow.id s = id := of_decide_eq_true hp
  have := hk db s hf hs hid
  rwa [← hid] at this

theorem keeps_insertLogout (session : ProviderSession) (clientId redirect : String)
    (state : Option String) :
    (insertLogout P c.tape session clientId redirect state).tx.Keeps (contract P) c := by
  refine sound_lockSession (fun _ => rfl) fun _ s _ _ hid => sound_ensure fun _ => ?_
  refine sound_insert (fun _ _ _ _ _ _ => rfl) (fun db hf => ?_) fun db hf => sound_commit ..
  refine insertOk_drawn hf.good.fresh rfl (fun n hn => ?_) ⟨le_refl _, s, ?_, hid⟩
    fun k hk => by cases hk
  · obtain rfl := List.mem_singleton.mp hn
    exact draws_id 0
  · rw [Db.insert_rows_ne _ _ (by decide)]
    exact hf.known.2

theorem keeps_beginLogout (session : ProviderSession) (clientId redirect : String)
    (state : Option String) (registry : ClientRegistry) :
    (beginLogout P c.tape session clientId redirect state registry).tx.Keeps (contract P) c := by
  show (Sql.ensure (registry.validPostLogoutRedirect clientId redirect) _ fun _ =>
    (insertLogout P c.tape session clientId redirect state).tx).Sound (contract P) c none _ _
  exact sound_ensure fun _ => keeps_insertLogout session clientId redirect state

theorem updateOk_consumeLogout {d : Db} {r : LogoutRow} {now : Time}
    (h : Row.Ok (t := .logoutChallenges) d r) (hopen : r.consumedAt = none) :
    UpdateOk P c .logoutChallenges d r (r.consume now) where
  later := ⟨rfl, by rw [hopen]; exact .none _⟩
  ok := h
  names _ hn := Or.inl hn

theorem keeps_finishInner (session : ProviderSession) (challenge : LogoutChallenge)
    (registry : ClientRegistry) (hint : Option IdClaims) :
    (finishInner P c.tape session challenge registry hint).tx.Keeps (contract P) c := by
  refine sound_lockSession (fun _ => rfl) fun _ s _ _ hid => ?_
  refine sound_lockOr (.id challenge.id) (fun x hx => ?_) (fun _ => rfl)
    fun _ row _ _ hp => sound_ensure fun hopen => sound_ensure fun _ => sound_ensure fun _ => ?_
  · simp only [Bool.and_eq_true, decide_eq_true_eq] at hx
    exact hx.1.1 ▸ List.mem_cons_self
  simp only [Bool.and_eq_true, decide_eq_true_eq] at hp
  have hrid : LogoutRow.id row = challenge.id := hp.1.1
  have hopen : row.consumedAt = none := by
    simp only [LogoutRow.pending, Bool.and_eq_true] at hopen
    simpa using hopen.2.1.1
  refine sound_updateLocked (t := .logoutChallenges) row (decide_eq_true hrid)
    (fun x hx => (of_decide_eq_true hx).trans hrid.symm) (fun _ => rfl) (fun d h => h.2)
    (fun db hfind => ?_) ?_
  · exact updateOk_consumeLogout (hfind.inv.ok .logoutChallenges row hfind.known.2) hopen
  · refine sound_revokeSession (k := fun _ => .commit _) (fun _ => ⟨_, rfl⟩) c.tape.scan_perm hid
      (updated_held ?_) (fun d => ?_) (fun d => ?_) (fun d h => ?_) fun _ => trivial
    · exact List.mem_cons_of_mem _ List.mem_cons_self
    · exact updated_rows_ne _ _ _ d (by decide)
    · exact updated_rows_ne _ _ _ d (by decide)
    · exact h.1.2

theorem keeps_finish (session : ProviderSession) (challenge : LogoutChallenge)
    (registry : ClientRegistry) :
    (finish P c.tape session challenge registry).Keeps (contract P) c :=
  sound_map _ _ (keeps_finishInner session challenge registry none)

end Eri
