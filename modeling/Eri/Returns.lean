/-
  File:      Eri/Returns.lean
  Subject:   Where browsers are sent, in runs of the server: to which client, what was checked
             for it, and what the client reads there.

  * `returns_run` -- one call: an outcome is that of a transaction that passed its policy;
  * `about_client` -- **a transaction keeps its client**, whether it is named by its id or by
    the secret of its callback;
  * `Returns`, `returns_ended` -- what was checked for a response, in any run;
  * `Origin`, `row_origin` -- the request a transaction was started for;
  * `no_open_redirect`, `response_parameters`.
-/
import Eri.Specs.Web
import Eri.Leases
import Eri.Pages

namespace Eri

open Sql

variable {P : Platform} {M : Machine schema Request Reply} {c : Request} {t : Tape} {db db' : Db}

/-! ## 1. One call -/

/-- The transaction is the one a call is about. -/
def Call.About (P : Platform) (call : Call) (row : BrowserRow) : Prop :=
  match call.subject with
  | some (.inl id) => row.id = id
  | some (.inr claim) => row.claimHash = some (secretHash P claim)
  | none => False

/-- A policy that a stored request passes is fresh and trusts its redirect URI. -/
theorem trusted_of_policy {R : ClientRegistry} {now now' : Instant} {row : ConsentRow}
    (h : validateOptionalRegistry P (some R) now now' row = .ok ()) :
    R.ensureFresh now = .ok () ∧ R.trustedRedirect P row.clientId row.redirectUri = true := by
  obtain ⟨p, hp⟩ := revalidate_of_validate h
  obtain ⟨hbinding, hparts⟩ := revalidate_checks hp
  constructor
  · obtain ⟨_, hfresh, _⟩ := bind_ok hbinding
    exact hfresh
  · obtain ⟨client, haccepted⟩ := ClientRegistry.validatePendingParts_accepted hparts
    obtain ⟨r, hr, hmatches⟩ := haccepted.redirect
    unfold ClientRegistry.trustedRedirect
    rw [haccepted.known, Option.any_some, List.any_eq_true]
    exact ⟨r, hr, hmatches⟩

/-- **The code of an outcome**: the call drew it, and stored it and no other, for the client and
    the redirect URI of the transaction. -/
structure OutcomeCode (P : Platform) (c : Request) (db db' : Db) (row : BrowserRow)
    (secret : String) (code : AuthorizationCodeRow) : Prop where
  drawn : secret = c.tape.secret 0
  stored : db'.rows .authorizationCodes = db.rows .authorizationCodes ++ [code]
  hash : code.codeHash = secretHash P secret
  client : code.toCodeRow.clientId = row.clientId
  redirect : code.toCodeRow.redirectUri = row.redirectUri

/-- **What an outcome shows**: the transaction the call was about passed its policy, at the last
    look at the lease too. -/
structure Shown (P : Platform) (c : Request) (db db' : Db) (base : String)
    (item : String × String) (state : Option String) (row : BrowserRow)
    (registry : Option ClientRegistry) : Prop where
  stored : row ∈ db.rows .browserAuthorizations
  about : c.call.About P row
  policy : c.call.policy = some registry
  passed : ∃ ks, PolicyPassed P c.tape registry row.toConsentRow ks ∧ 0 ∈ ks ∧
    ∀ lease k, c.call.lease = some (lease, k) → k ∈ ks
  redirect : row.redirectUri = base
  state : row.downstreamState = state
  item : item = ("error", "access_denied") ∧
      db'.rows .authorizationCodes = db.rows .authorizationCodes ∨
    item.1 = "code" ∧ ∃ code, OutcomeCode P c db db' row item.2 code

theorem revalidate_client {R : ClientRegistry} {now now' : Instant} {row : ConsentRow}
    {pending : PendingAuthorizationGrant} (h : revalidate P R now now' row = .ok pending) :
    pending.clientId = row.clientId ∧ pending.redirectUri = row.redirectUri := by
  obtain ⟨hclient, hredirect, _⟩ := R.validatePendingParts_ok (revalidate_checks h).2
  exact ⟨hclient, hredirect⟩

/-- The code of an approval is stored for its client. -/
theorem approvedRows_code {R : ClientRegistry} {session : ProviderSession}
    {handle : ConsentHandle} {s : SessionRow} {row : BrowserRow}
    {pending : PendingAuthorizationGrant} {grant : ValidatedAuthorizationGrant}
    {i j k : Instant} {consent : Bool} {call : Call}
    (hpending : revalidate P R i j row.toConsentRow = .ok pending)
    (hgrant : pending.approve k consent = .ok grant) :
    ∃ code, OutcomeCode P ⟨call, t⟩ db (approvedRows P t session handle s row grant db) row
      (t.secret 0) code := by
  obtain ⟨hclient, hredirect⟩ := revalidate_client hpending
  obtain ⟨hgclient, hgredirect, _⟩ := PendingAuthorizationGrant.approve_ok hgrant
  exact ⟨_, rfl, approvedRows_codes.trans (Db.insert_rows_self ..), rfl, hgclient.trans hclient,
    hgredirect.trans hredirect⟩

theorem returns_run {r : Reply} {base : String} {item : String × String} {state : Option String}
    (h : (program P c).run db = (r, db')) (hr : r.returns = some (base, item, state)) :
    ∃ row registry, Shown P c db db' base item state row registry := by
  have hlease : ∀ {o : Option ResolvedCimdPolicy} {n : Nat} (lease : LeasedClientMetadata) k,
      (o.map fun d => (d.snapshot, n)) = some (lease, k) → k = n := by
    intro o n lease k e
    obtain ⟨_, _, _, rfl⟩ := lease_of_map e
    rfl
  obtain ⟨call, t⟩ := c
  cases call with
  | cancelGoogle id browserState binding registry =>
      obtain ⟨x, hx, rfl⟩ := run_of_map h
      rcases cancelGoogle_run hx with ⟨⟨e, rfl⟩, _⟩ | ⟨row, hrow, hpassed, rfl, rfl⟩
      · cases hr
      cases hr
      refine ⟨row, registry, find_mem (t := .browserAuthorizations) hrow,
        (awaits_iff (List.find?_some hrow :)).1, rfl, ⟨_, hpassed, by simp, fun lease k e => ?_⟩,
        rfl, rfl, Or.inl ⟨rfl, rfl⟩⟩
      cases registry with
      | none => cases e
      | some R => simp [hlease lease k e]
  | denyCallback claim registry =>
      obtain ⟨x, hx, rfl⟩ := run_of_map h
      rcases denyCallback_run hx with ⟨⟨e, rfl⟩, _⟩ | ⟨row, hrow, hpassed, rfl, rfl⟩
      · cases hr
      cases hr
      have hclaimed : row.claimedBy P claim = true := List.find?_some hrow
      unfold BrowserRow.claimedBy at hclaimed
      rw [Bool.and_eq_true, decide_eq_true_eq] at hclaimed
      exact ⟨row, some registry, find_mem (t := .browserAuthorizations) hrow, hclaimed.1, rfl,
        ⟨_, hpassed, by simp, fun lease k e => by simp [hlease lease k e]⟩, rfl, rfl,
        Or.inl ⟨rfl, rfl⟩⟩
  | deny session handle registry =>
      obtain ⟨x, hx, rfl⟩ := run_of_map h
      rcases deny_run hx with ⟨⟨e, rfl⟩, _⟩ | ⟨s, row, hp, hpassed, rfl, rfl⟩
      · cases hr
      cases hr
      refine ⟨row, registry, find_mem (t := .browserAuthorizations) hp.locked,
        consents_id (List.find?_some hp.locked :), rfl, ⟨_, hpassed, by simp, fun lease k e => ?_⟩,
        rfl, rfl, Or.inl ⟨rfl, rfl⟩⟩
      cases registry with
      | none => cases e
      | some R => simp [hlease lease k e]
  | approve session handle registry =>
      obtain ⟨x, hx, rfl⟩ := run_of_map h
      rcases approve_run hx with ⟨⟨e, rfl⟩, _⟩ | ⟨s, row, pending, grant, hp, hpending, hgrant,
        hpassed, rfl, rfl⟩
      · cases hr
      cases hr
      exact ⟨row, some registry, find_mem (t := .browserAuthorizations) hp.locked,
        consents_id (List.find?_some hp.locked :), rfl,
        ⟨_, hpassed, by simp, fun lease k e => by simp [hlease lease k e]⟩, rfl, rfl,
        Or.inr ⟨rfl, approvedRows_code hpending hgrant⟩⟩
  | approvePreAuthorized session handle registry =>
      obtain ⟨x, hx, rfl⟩ := run_of_map h
      rcases approvePreAuthorized_run hx with
        ⟨⟨e, rfl⟩, _⟩ | ⟨s, row, pending, hp, hpending,
          ⟨rfl, _⟩ | ⟨grant, _, _, hgrant, hpassed, rfl, rfl⟩⟩
      · cases hr
      · cases hr
      cases hr
      exact ⟨row, some registry, find_mem (t := .browserAuthorizations) hp.locked,
        consents_id (List.find?_some hp.locked :), rfl,
        ⟨_, hpassed, by simp, fun lease k e => by simp [hlease lease k e]⟩, rfl, rfl,
        Or.inr ⟨rfl, approvedRows_code hpending hgrant⟩⟩
  | _ =>
      obtain ⟨x, hx, rfl⟩ := run_of_map h
      cases hr

/-! ## 2. The client of a transaction -/

/-- The claim of a transaction, as long as it is open, was drawn by the call that found the
    transaction for its callback. -/
def ClaimedBy (P : Platform) (e : Entry) (row : BrowserRow) : Prop :=
  ∀ hash, row.claimHash = some hash → hash = e.call.tape.hash P 0 ∧ ∃ state binding,
    e.call.call = .claimCallback state binding ∧ ∃ x ∈ e.before.rows .browserAuthorizations,
      BrowserRow.id x = row.id ∧ BrowserRow.claimable P state binding x = true

theorem Begins.claim {e : Entry} {row : BrowserRow} (h : Begins P e.call.tape e.call.call row) :
    row.claimHash = none := by
  obtain ⟨thread, ⟨call, t⟩, reply, before, after⟩ := e
  cases h with
  | google => rfl
  | authenticated => rfl

/-- A move claims the transaction, or leaves no new claim. -/
theorem Move.claim_or {t : Tape} {row : BrowserRow} {call : Call} {r : Reply}
    {set : BrowserRow → BrowserRow} (h : Move P t row call r set) :
    ((set row).claimHash = row.claimHash ∨ (set row).claimHash = none) ∨
      ((set row).claimHash = some (t.hash P 0) ∧ ∃ state binding,
        call = .claimCallback state binding ∧ row.claimable P state binding = true) := by
  cases h with
  | claim hheld hstage =>
      refine Or.inr ⟨rfl, _, _, rfl, ?_⟩
      unfold BrowserRow.claimable
      rw [hheld, hstage]
      rfl
  | _ => first | exact Or.inl (Or.inl rfl) | exact Or.inl (Or.inr rfl)

/-- **Open claims were drawn in the run.** -/
theorem entry_claimed {e : Entry} (h : Reachable P M) (he : e ∈ M.log) :
    ∀ row ∈ e.before.rows .browserAuthorizations, ∃ e' ∈ M.log, ClaimedBy P e' row := by
  intro row hrow
  suffices horigin : ∃ e', Before M e' e ∧ ClaimedBy P e' row by
    obtain ⟨e', hbefore, hclaimed⟩ := horigin
    exact ⟨e', hbefore.subset (List.mem_cons_self ..), hclaimed⟩
  refine reachable_origin_before
    (fun r r' : BrowserRow => r'.id = r.id ∧ (r'.claimHash = r.claimHash ∨ r'.claimHash = none))
    (lawful P) rfl (fun e r r' hG hl => ?_) (fun e hgood hrun r hr => ?_) h he row hrow
  · intro hash hhash
    rcases hl.2 with hsame | hnone
    · rw [hl.1]
      exact hG hash (hsame ▸ hhash)
    · rw [hnone] at hhash
      cases hhash
  · cases browserChange hgood hrun with
    | same _ hrows => exact Or.inl ⟨r, hrows ▸ hr, rfl, Or.inl rfl⟩
    | begins _ row hnew hrows =>
        rw [hrows] at hr
        rcases List.mem_append.mp hr with hold | hlast
        · exact Or.inl ⟨r, hold, rfl, Or.inl rfl⟩
        · rw [List.mem_singleton] at hlast
          subst hlast
          refine Or.inr fun hash hhash => ?_
          rw [hnew.claim] at hhash
          cases hhash
    | move row hrow set hmove hrows =>
        rw [hrows, Db.update_rows_self] at hr
        obtain ⟨x, hx, rfl⟩ := List.mem_map.mp hr
        split
        · rename_i hid
          have hsame : x = row := same_key hgood.inv hx hrow (of_decide_eq_true hid)
          subst hsame
          rcases hmove.claim_or with hkept | ⟨hnew, state, binding, hcall, hclaimable⟩
          · exact Or.inl ⟨x, hx, hmove.id, hkept⟩
          · refine Or.inr fun hash hhash => ?_
            rw [hnew] at hhash
            exact ⟨(Option.some.inj hhash).symm, state, binding, hcall, x, hx, hmove.id.symm,
              hclaimable⟩
        · exact Or.inl ⟨x, hx, rfl, Or.inl rfl⟩

/-- A hash was drawn by one call. -/
theorem entry_of_hash {e e' : Entry} {i j : Fin 4} (h : Reachable P M) (he : e ∈ M.log)
    (he' : e' ∈ M.log) (hhash : e.call.tape.hash P i = e'.call.tape.hash P j) : e = e' := by
  by_contra hne
  exact entries_compat (lawful P) h he he' hne (.hash (e.call.tape.hash P i)) ⟨i, rfl⟩ ⟨j, hhash⟩

/-- A browser holds the secrets of one transaction. -/
theorem claimable_same {state binding : String} {x y : BrowserRow} (hI : (layout P).Integrity db)
    (hx : x ∈ db.rows .browserAuthorizations) (hy : y ∈ db.rows .browserAuthorizations)
    (hxc : x.claimable P state binding = true) (hyc : y.claimable P state binding = true) :
    x = y := by
  have hname : ∀ r : BrowserRow, r.claimable P state binding = true →
      .hash (secretHash P state) ∈ Row.names (t := .browserAuthorizations) r := by
    intro r hr
    unfold BrowserRow.claimable BrowserRow.heldBy at hr
    simp only [Bool.and_eq_true, decide_eq_true_eq] at hr
    exact BrowserRow.mem_names.mpr (Or.inr ⟨_, Or.inl hr.1.1, rfl⟩)
  exact hI.unique (t := Table.browserAuthorizations) hx hy (hname x hxc) (hname y hyc)

/-- **Calls about one transaction**: the rows they found have one id. -/
theorem about_id {e e' : Entry} {x y : BrowserRow} (h : Reachable P M) (he : e ∈ M.log)
    (he' : e' ∈ M.log) (hx : x ∈ e.before.rows .browserAuthorizations)
    (hy : y ∈ e'.before.rows .browserAuthorizations)
    (hsame : e.call.call.subject = e'.call.call.subject) (hxa : e.call.call.About P x)
    (hya : e'.call.call.About P y) : x.id = y.id := by
  unfold Call.About at hxa hya
  rw [← hsame] at hya
  match hsubject : e.call.call.subject with
  | none =>
      rw [hsubject] at hxa
      exact hxa.elim
  | some (.inl id) =>
      rw [hsubject] at hxa hya
      exact hxa.trans hya.symm
  | some (.inr claim) =>
      rw [hsubject] at hxa hya
      -- the claim was drawn once, for a transaction its state and binding name
      obtain ⟨d, hd, hdx⟩ := entry_claimed h he x hx
      obtain ⟨d', hd', hdy⟩ := entry_claimed h he' y hy
      obtain ⟨hhash, state, binding, hcall, r, hr, hrx, hclaimable⟩ := hdx _ hxa
      obtain ⟨hhash', state', binding', hcall', r', hr', hry, hclaimable'⟩ := hdy _ hya
      obtain rfl : d = d' := entry_of_hash h hd hd' (hhash.symm.trans hhash')
      rw [hcall] at hcall'
      cases hcall'
      have hI : (layout P).Integrity d.before := (reachable_entry (lawful P) h hd).1.inv
      rw [← hrx, ← hry, claimable_same hI hr hr' hclaimable hclaimable']

/-- **A transaction keeps its client.** -/
theorem about_client {e e' : Entry} {x y : BrowserRow} (h : Reachable P M) (he : e ∈ M.log)
    (he' : e' ∈ M.log) (hx : x ∈ e.before.rows .browserAuthorizations)
    (hy : y ∈ e'.before.rows .browserAuthorizations)
    (hsame : e.call.call.subject = e'.call.call.subject) (hxa : e.call.call.About P x)
    (hya : e'.call.call.About P y) : x.clientId = y.clientId := by
  obtain ⟨x', hx', hxid, hxc, _⟩ := entry_consent h he hx
  obtain ⟨y', hy', hyid, hyc, _⟩ := entry_consent h he' hy
  have hid : BrowserRow.id x' = BrowserRow.id y' := by
    rw [hxid, hyid, about_id h he he' hx hy hsame hxa hya]
  obtain rfl : x' = y' := same_key (reachable_integrity h) hx' hy' hid
  exact congrArg ConsentRow.clientId (hxc.symm.trans hyc)

/-- What a call says the client of its transaction is. -/
theorem client_run {client : String}
    (h : (program P c).run db = (.client (.ok client), db')) :
    ∃ row ∈ db.rows .browserAuthorizations, c.call.About P row ∧
      (BrowserRow.toConsentRow row).clientId = client := by
  obtain ⟨call, t⟩ := c
  cases call with
  | transactionClientId id =>
      obtain ⟨x, hx, hr⟩ := run_of_map h
      have hpost : ∀ client, x = .ok client → ∃ row ∈ db.rows .browserAuthorizations,
          BrowserRow.id row = id ∧ (BrowserRow.toConsentRow row).clientId = client := by
        refine Tx.run_of_post hx ((post_selectOr ..).mpr ⟨fun row hrow => ?_, fun _ => nofun⟩)
        rintro _ ⟨⟩
        exact ⟨row, find_mem (t := .browserAuthorizations) hrow,
          of_decide_eq_true (List.find?_some hrow :), rfl⟩
      cases hr
      exact hpost client rfl
  | callbackClientId claim =>
      obtain ⟨x, hx, hr⟩ := run_of_map h
      have hpost : ∀ client, x = .ok client → ∃ row ∈ db.rows .browserAuthorizations,
          BrowserRow.claimHash row = some (secretHash P claim) ∧
            (BrowserRow.toConsentRow row).clientId = client := by
        refine Tx.run_of_post hx ((post_selectOr ..).mpr ⟨fun row hrow => ?_, fun _ => nofun⟩)
        rintro _ ⟨⟩
        have hclaimed := List.find?_some hrow
        simp only [Bool.and_eq_true, decide_eq_true_eq] at hclaimed
        exact ⟨row, find_mem (t := .browserAuthorizations) hrow, hclaimed.1, rfl⟩
      cases hr
      exact hpost client rfl
  | _ =>
      obtain ⟨x, hx, hr⟩ := run_of_map h
      cases hr

namespace Web

/-! ## 3. Workers -/

section Workers

variable {C : HttpCrates} {W : Server} {p : Provider} {req : HttpRequest} {h : Record}

/-- What the workers of a run keep to. -/
abbrev Keeping (C : HttpCrates) (W : Server) : Prop :=
  Sql.Sound (service C) (fun t => MayCall C t.2) (fun t => Ends C t.1 t.2) W

theorem keeping (h : Online C W) : Keeping C W :=
  Sql.sound_reachable (fun t => handle_meets C t.1 t.2) h

/-- **The client a worker resolved for a call is that of its transaction.** -/
theorem names_client (hW : Online C W) {w : Worker} (hw : w ∈ W.workers) {e : Entry}
    {row : BrowserRow} {client : String} (he : e ∈ W.store.log)
    (hrow : row ∈ e.before.rows .browserAuthorizations)
    (habout : e.call.call.About C.toPlatform row) (hnames : Names w.record e.call.call client) :
    row.clientId = client := by
  have hlawful := lawful C.toPlatform
  have hreach : Eri.Reachable C.toPlatform W.store := hW.reachable
  cases hnames with
  | told hcall hreply hsame =>
      obtain ⟨e', he', _, hasks, hr⟩ := (keeping hW).entry hlawful hW hw hcall hreply
      have hrun := (reachable_entry hlawful hreach he').2
      rw [hr] at hrun
      obtain ⟨row', hrow', habout', hclient⟩ := client_run hrun
      have hsubject : e'.call.call.subject = e.call.call.subject := by
        rw [show e'.call.call = _ from hasks, hsame]
      rw [← hclient]
      exact about_client hreach he he' hrow hrow' hsubject.symm habout habout'
  | began hcall hreply hclient hsame =>
      obtain ⟨e', he', _, hasks, hr⟩ := (keeping hW).entry hlawful hW hw hcall hreply
      have hrun := (reachable_entry hlawful hreach he').2
      obtain ⟨thread, ⟨call, t⟩, reply, before, after⟩ := e'
      obtain rfl : call = _ := hasks
      obtain rfl : reply = _ := hr
      obtain ⟨x, hx, hend⟩ := run_of_map hrun
      rcases beginAuthenticated_run hx with ⟨⟨_, rfl⟩, _⟩ | ⟨s, _, _, rfl, _⟩
      · cases hend
      have hhandle := Except.ok.inj (Reply.handle.inj hend)
      -- the row is the one this call began, so it holds what was asked for
      have hid : row.id = t.uuid 0 := by
        unfold Call.About at habout
        rw [hsame] at habout
        exact habout.trans (congrArg ConsentHandle.transactionId hhandle)
      obtain ⟨row', hrow', hrid, hconsent, _⟩ := entry_consent hreach he hrow
      obtain ⟨d, hd, pending', _, _, _, _, hbegins, hdid, hof⟩ := reachable_began hreach row' hrow'
      obtain rfl := entry_of_uuid hreach hd he' (hdid.symm.trans (hrid.trans hid))
      cases hbegins
      rw [← hclient, ← hconsent, hof]
      rfl

/-- **A response to a client**: of the request itself, or of the transaction of the last call. -/
inductive Returns (C : HttpCrates) (W : Server) (req : HttpRequest) (h : Record) (base : String)
    (item : String × String) (state : Option String) : Prop where
  | own {client code : String} {R : ClientRegistry} {now : Instant} {past : Record}
      (hparam : Requested C req client base) (hstate : Stated C req state)
      (hR : Resolved h client R) (htrusted : R.trustedRedirect C.toPlatform client base = true)
      (hlast : h = past ++ [.answered (I := surroundings) Ask.instant now])
      (hfresh : R.ensureFresh now = .ok ()) (hitem : item = ("error", code))
  | stored {e : Entry} {row : BrowserRow} {R : ClientRegistry} {past : Record}
      (he : e ∈ W.store.log)
      (hlast : h = past ++ [.called e.thread e.call.call, .replied e.thread (some e.reply)])
      (hreply : e.reply.returns = some (base, item, state))
      (hshown : Shown C.toPlatform e.call e.before e.after base item state row (some R))
      (hR : Resolved h row.clientId R)

/-- **Every response to a client, in any run.** -/
theorem returns_ended {i : Nat} {r : Response} {base : String}
    {items : List (String × Option String)} (hW : Online C W)
    (hi : W.At i (p, req) h (.ready (.done r))) (hclient : r.page.client = some (base, items)) :
    ∃ item state, items = sent p.issuer item state ∧ Returns C W req h base item state := by
  have hw := List.mem_of_getElem? hi
  have hreach : Eri.Reachable C.toPlatform W.store := hW.reachable
  cases ((keeping hW).ended hi).sends base items hclient with
  | error hparam hstate hR htrusted hlast hfresh hitems =>
      exact ⟨_, _, hitems, .own hparam hstate hR htrusted hlast hfresh rfl⟩
  | @outcome n call reply past item state hlast hbase hitems =>
      refine ⟨item, state, hitems, ?_⟩
      have hcalled : .called n call ∈ h := hlast ▸ List.mem_append_right _ List.mem_cons_self
      have hreplied : .replied n (some reply) ∈ h :=
        hlast ▸ List.mem_append_right _ (List.mem_cons_of_mem _ List.mem_cons_self)
      obtain ⟨e, he, rfl, rfl, rfl⟩ :=
        (keeping hW).entry (lawful C.toPlatform) hW hw hcalled hreplied
      have hrun := (reachable_entry (lawful C.toPlatform) hreach he).2
      obtain ⟨row, registry, hshown⟩ := returns_run hrun hbase
      obtain ⟨before, hbefore, hmay⟩ := (keeping hW).may_called hw hcalled
      obtain ⟨client, R, rfl, hR, hnames⟩ := hmay.policy registry hshown.policy
      have hprefix : before <+: h := (List.prefix_append ..).trans hbefore
      have hsame := names_client hW hw he hshown.stored hshown.about (hnames.mono hprefix)
      exact .stored he hlast hbase hshown (hsame ▸ hR.mono hprefix)

end Workers

section Origins

variable {C : HttpCrates} {W : Server}

/-- **The request a transaction was started for**: a worker validated it under what its client
    resolved to, and recorded whether a code may be issued without a page. -/
structure Origin (C : HttpCrates) (W : Server) (row : BrowserRow) (w : Worker)
    (a : AuthorizeParams) (R : ClientRegistry) (pending : PendingAuthorizationGrant) : Prop where
  worker : w ∈ W.workers
  starts : Starts C w.task.2 w.record a R pending
  begins : ∃ e ∈ W.store.log, row.id = e.call.tape.uuid 0 ∧
    .called e.thread e.call.call ∈ w.record ∧
    e.call.call.begins = some (pending, a.downstream, a.nonce, a.allows R pending)

/-- Every transaction has one. -/
theorem row_origin (hW : Online C W) {row : BrowserRow}
    (hrow : row ∈ W.store.db.rows .browserAuthorizations) :
    ∃ w a R pending, Origin C W row w a R pending := by
  obtain ⟨e, he, pending, state, nonce, allow, now, hbegins, hid, _⟩ :=
    reachable_began hW.reachable row hrow
  rcases (keeping hW).owner (lawful C.toPlatform) hW he with houtside | ⟨w, hw, hcalled⟩
  · have houtside : elsewhere e.call.call = true := houtside
    generalize e.call.call = call at hbegins houtside
    cases call with
    | beginGoogle | beginAuthenticated => cases houtside
    | _ => cases hbegins
  · obtain ⟨past, hpast, hmay⟩ := (keeping hW).may_called hw hcalled
    obtain ⟨a, R, hstarts, rfl, rfl, rfl⟩ := hmay.begins pending state nonce allow hbegins
    have hprefix : past <+: w.record := (List.prefix_append ..).trans hpast
    exact ⟨w, a, R, pending, hw, hstarts.mono hprefix, e, he, hid, hcalled, hbegins⟩

/-- **What a transaction recorded of its origin.** -/
theorem Origin.consent (hW : Online C W) {row : BrowserRow} {w : Worker} {a : AuthorizeParams}
    {R : ClientRegistry} {pending : PendingAuthorizationGrant}
    (hrow : row ∈ W.store.db.rows .browserAuthorizations)
    (ho : Origin C W row w a R pending) : ∃ now,
    row.toConsentRow = .of pending a.downstream a.nonce (a.allows R pending) now := by
  have hreach : Eri.Reachable C.toPlatform W.store := hW.reachable
  obtain ⟨e, he, hid, _, hbegins⟩ := ho.begins
  obtain ⟨e', he', _, _, _, _, now, hbegins', hid', hconsent⟩ := reachable_began hreach row hrow
  obtain rfl : e' = e := entry_of_uuid hreach he' he (hid'.symm.trans hid)
  rw [hbegins] at hbegins'
  cases hbegins'
  exact ⟨now, hconsent⟩

/-- **A transaction has the client, the redirect URI and the state of its request.** -/
theorem Origin.recorded (hW : Online C W) {row : BrowserRow} {w : Worker} {a : AuthorizeParams}
    {R : ClientRegistry} {pending : PendingAuthorizationGrant}
    (hrow : row ∈ W.store.db.rows .browserAuthorizations)
    (ho : Origin C W row w a R pending) :
    row.clientId = a.client ∧ row.redirectUri = a.redirect ∧
      row.downstreamState = a.downstream := by
  obtain ⟨_, hconsent⟩ := ho.consent hW hrow
  obtain ⟨now, hpending⟩ := ho.starts.pending
  obtain ⟨hclient, hredirect, _⟩ := R.validatePendingParts_ok hpending
  rw [hconsent]
  exact ⟨hclient, hredirect, rfl⟩

end Origins

/-! ## 4. Results -/

section Results

variable {C : HttpCrates} {W : Server} {p : Provider} {req : HttpRequest} {h : Record}

/-- **What was checked before a browser is sent to a client**: the URI is the only one of the
    request, or the one of the transaction that the last call was about; what the client
    resolved to for this request trusts it, and was fresh when it was last looked at. -/
structure Permitted (C : HttpCrates) (W : Server) (req : HttpRequest) (h : Record)
    (base client : String) (R : ClientRegistry) : Prop where
  resolved : Resolved h client R
  registered : ∃ c r, R.get client = some c ∧ r ∈ c.redirects ∧
    redirectMatches C.toPlatform r base = true
  source : (Requested C req client base ∧ ∃ past now,
      h = past ++ [.answered (I := surroundings) Ask.instant now] ∧ R.ensureFresh now = .ok ()) ∨
    ∃ e ∈ W.store.log, ∃ past, ∃ row ∈ e.before.rows .browserAuthorizations,
      h = past ++ [.called e.thread e.call.call, .replied e.thread (some e.reply)] ∧
      e.call.call.About C.toPlatform row ∧ (BrowserRow.toConsentRow row).redirectUri = base ∧
      (BrowserRow.toConsentRow row).clientId = client ∧
      e.call.call.policy = some (some R) ∧
      ∀ lease k, e.call.call.lease = some (lease, k) →
        R.ensureFresh (e.call.tape.instant k) = .ok ()

theorem registered_of_trusted {P : Platform} {R : ClientRegistry} {client uri : String}
    (h : R.trustedRedirect P client uri = true) :
    ∃ c r, R.get client = some c ∧ r ∈ c.redirects ∧ redirectMatches P r uri = true := by
  obtain ⟨c, hc, hany⟩ := Option.any_eq_true _ _ |>.mp h
  obtain ⟨r, hr, hmatches⟩ := List.any_eq_true.mp hany
  exact ⟨c, r, hc, hr, hmatches⟩

theorem Returns.permitted {base : String} {item : String × String} {state : Option String}
    (hR : Returns C W req h base item state) : ∃ client R, Permitted C W req h base client R := by
  cases hR with
  | @own client code R now past hparam hstate hR htrusted hlast hfresh hitem =>
      exact ⟨client, R, hR, registered_of_trusted htrusted,
        Or.inl ⟨hparam, past, now, hlast, hfresh⟩⟩
  | @stored e row R past he hlast hreply hshown hR =>
      obtain ⟨ks, hpassed, hzero, hlease⟩ := hshown.passed
      have htrusted := (trusted_of_policy (hpassed 0 hzero)).2
      refine ⟨row.clientId, R, hR, registered_of_trusted (hshown.redirect ▸ htrusted), Or.inr
        ⟨e, he, past, row, hshown.stored, hlast, hshown.about, hshown.redirect, rfl,
          hshown.policy, fun lease k hk => ?_⟩⟩
      exact (trusted_of_policy (hpassed k (hlease lease k hk))).1

/-- **No open redirect.** In every run, a response that sends its browser to a client does so
    for a client that resolved for this request, to a URI it registered; and an authorization
    request is answered so only if it names one client and one URI, and these belong together. -/
theorem no_open_redirect (hW : Online C W) {i : Nat} {r : Response} {base : String}
    {items : List (String × Option String)} (hi : W.At i (p, req) h (.ready (.done r)))
    (hclient : r.page.client = some (base, items)) :
    (∃ client R, Permitted C W req h base client R) ∧
      (req.authorize.isSome → ∃ client redirect R, Requested C req client redirect ∧
        Resolved h client R ∧ R.trustedRedirect C.toPlatform client redirect = true) := by
  obtain ⟨item, state, _, hreturns⟩ := returns_ended hW hi hclient
  exact ⟨hreturns.permitted, ((keeping hW).ended hi).requested _ hclient⟩

namespace Sample

theorem signIn_run : (served signIn).store.calls.length ≤ 7 ∧
    (((served signIn).workers[1]?).bind Sql.Worker.result).bind (fun r => r.page.client) =
      some ("https://app.example/callback",
        [("code", some (secret 24)), ("state", some "a b"), ("iss", some "http://localhost")]) := by
  decide +kernel

end Sample

/-- A browser that signs in is sent to its client. -/
theorem signIn_ended : ∃ req record r, Online Sample.serverCrates (Sample.served Sample.signIn) ∧
    (Sample.served Sample.signIn).At 1 (Sample.localProvider, req) record (.ready (.done r)) ∧
    r.page.client = some ("https://app.example/callback",
      [("code", some (Sample.secret 24)), ("state", some "a b"),
        ("iss", some "http://localhost")]) := by
  obtain ⟨hlength, hclient⟩ := Sample.signIn_run
  obtain ⟨r, hresult, hclient⟩ := Option.bind_eq_some_iff.mp hclient
  obtain ⟨task, record, htask, hat⟩ := Sample.served_at hresult
  cases htask
  exact ⟨_, record, r, Sample.online_served hlength, hat, hclient⟩

theorem no_open_redirect_signIn : ∃ req record client R,
    Permitted Sample.serverCrates (Sample.served Sample.signIn) req record
      "https://app.example/callback" client R := by
  obtain ⟨req, record, r, hW, hat, hclient⟩ := signIn_ended
  obtain ⟨⟨client, R, hpermitted⟩, _⟩ := no_open_redirect hW hat hclient
  exact ⟨req, record, client, R, hpermitted⟩

/-- **What became of the transaction that a request started**: the last call of the response was
    about this transaction, and its reply is what is sent: the denial, when the call stored no
    code, or the code that the call drew and stored. The client, the redirect URI and the state
    are those of the transaction, and of the request that started it. -/
structure OutcomeOf (C : HttpCrates) (W : Server) (h : Record) (base : String)
    (item : String × String) (state : Option String) (e : Entry) (row : BrowserRow) (w : Worker)
    (a : AuthorizeParams) : Prop where
  logged : e ∈ W.store.log
  last : ∃ past, h = past ++ [.called e.thread e.call.call, .replied e.thread (some e.reply)]
  reply : e.reply.returns = some (base, item, state)
  found : row ∈ e.before.rows .browserAuthorizations
  about : e.call.call.About C.toPlatform row
  origin : ∃ R pending, Origin C W row w a R pending
  client : row.clientId = a.client
  redirect : row.redirectUri = base ∧ a.redirect = base
  state : row.downstreamState = state ∧ a.downstream = state
  item : item = ("error", "access_denied") ∧
      e.after.rows .authorizationCodes = e.before.rows .authorizationCodes ∨
    item.1 = "code" ∧ (∃ code, OutcomeCode C.toPlatform e.call e.before e.after row item.2 code) ∧
      ∃ code ∈ W.store.db.rows .authorizationCodes,
        AuthorizationCodeRow.codeHash code = secretHash C.toPlatform item.2 ∧
        (AuthorizationCodeRow.toCodeRow code).clientId = a.client ∧
        (AuthorizationCodeRow.toCodeRow code).redirectUri = base

/-- **The answer to an authorization request**: its own error, or what became of the
    transaction it started. -/
inductive AnswerTo (C : HttpCrates) (W : Server) (req : HttpRequest) (h : Record) (base : String)
    (item : String × String) (state : Option String) : Prop where
  | own {client code : String} (hparam : Requested C req client base)
      (hstate : Stated C req state) (hitem : item = ("error", code))
  | started {e : Entry} {row : BrowserRow} {w : Worker} {a : AuthorizeParams}
      (houtcome : OutcomeOf C W h base item state e row w a)

theorem Returns.answerTo {base : String} {item : String × String} {state : Option String}
    (hW : Online C W) (hR : Returns C W req h base item state) :
    AnswerTo C W req h base item state := by
  cases hR with
  | own hparam hstate hR htrusted hlast hfresh hitem => exact .own hparam hstate hitem
  | @stored e row R past he hlast hreply hshown hR =>
      have hreach : Eri.Reachable C.toPlatform W.store := hW.reachable
      obtain ⟨row', hrow', hid, hconsent, _⟩ := entry_consent hreach he hshown.stored
      obtain ⟨w, a, R', pending, ho⟩ := row_origin hW hrow'
      obtain ⟨hclient, hredirect, hstate⟩ := ho.recorded hW hrow'
      have horigin : Origin C W row w a R' pending :=
        ⟨ho.worker, ho.starts, hid ▸ ho.begins⟩
      rw [hconsent] at hclient hredirect hstate
      refine .started ⟨he, ⟨past, hlast⟩, hreply, hshown.stored, hshown.about,
        ⟨R', pending, horigin⟩, hclient, ⟨hshown.redirect, hredirect.symm.trans hshown.redirect⟩,
        ⟨hshown.state, hstate.symm.trans hshown.state⟩, ?_⟩
      rcases hshown.item with hdenied | ⟨hname, code, hcode⟩
      · exact Or.inl hdenied
      have hmem : code ∈ e.after.rows .authorizationCodes :=
        hcode.stored ▸ List.mem_append_right _ (List.mem_singleton_self _)
      obtain ⟨code', hcode', hlater⟩ :=
        entry_progress_after hreach he .authorizationCodes code hmem
      have hkeeps := AuthorizationCodeRow.Later.keeps hlater
      refine Or.inr ⟨hname, ⟨code, hcode⟩, code', hcode', ?_, ?_, ?_⟩
      · rw [hkeeps]
        exact hcode.hash
      · rw [hkeeps]
        exact hcode.client.trans hclient
      · rw [hkeeps]
        exact hcode.redirect.trans hshown.redirect

/-- A client's URI has no fragment. -/
theorem Permitted.plain {base client : String} {R : ClientRegistry}
    (hU : FragmentLaw C.toPlatform) (hP : Permitted C W req h base client R) :
    '#' ∉ base.toList := by
  obtain ⟨_, r, _, _, hmatches⟩ := hP.registered
  have hsafe : (safeRedirect C.toPlatform base).isSome = true := by
    unfold redirectMatches at hmatches
    split at hmatches
    · cases hmatches
    · rename_i hnone
      simpa [Option.isSome_iff_ne_none] using hnone
  obtain ⟨url, hurl⟩ := Option.isSome_iff_exists.mp hsafe
  obtain ⟨hparse, hcheck⟩ := Option.filter_eq_some_iff.mp hurl
  refine hU base url hparse ?_
  simp only [Bool.not_eq_true', Bool.or_eq_false_iff, Option.isSome_eq_false_iff,
    Option.isNone_iff_eq_none] at hcheck
  exact hcheck.2

/-- The items of a response that have a value. -/
theorem present_sent {issuer : String} {item : String × String} {state : Option String} :
    present (sent issuer item state) =
      item :: state.toList.map (fun v => ("state", v)) ++ [("iss", issuer)] := by
  cases state <;> rfl

/-- **Parameters arrive**: a redirect adds them to its base, and the form decoding of its query
    gives the base's pairs and then them; the document that ends a form names the same URL
    twice; and in every run a client reads the code or the error, the state of the
    authorization request it belongs to, and the issuer. -/
theorem response_parameters (C : HttpCrates) (hF : FormLaws C) (hU : FragmentLaw C.toPlatform) :
    (∀ base items, '#' ∉ base.toList →
      base.toList <+: (redirectUrl C base items).toList ∧
      (present items = [] → redirectUrl C base items = base) ∧
      formPairs C (redirectUrl C base items) = formPairs C base ++ present items) ∧
    (∀ base items, (C.parse base).any (fun url => url.scheme = "http" || url.scheme = "https") →
      ∃ html, (consentReturn C base items).page.html C = some html ∧
        (Html.values .text html.toList).map Html.decode =
          ["width=device-width,initial-scale=1".toList,
            "0;url=".toList ++ (redirectUrl C base items).toList,
            (redirectUrl C base items).toList]) ∧
    ∀ W, Online C W → ∀ i p req h r base items, W.At i (p, req) h (.ready (.done r)) →
      r.page.client = some (base, items) → ∃ item state, AnswerTo C W req h base item state ∧
        formPairs C (redirectUrl C base items) = formPairs C base ++
          item :: state.toList.map (fun v => ("state", v)) ++ [("iss", p.issuer)] := by
  refine ⟨fun base items hbase => ⟨redirectUrl_starts, redirectUrl_absent hF,
    formPairs_redirectUrl hF hbase⟩, fun base items hweb => ?_, ?_⟩
  · refine ⟨consentReturnHtml (redirectUrl C base items), ?_, consentReturnHtml_values _⟩
    unfold consentReturn
    rw [if_pos hweb]
    rfl
  · intro W hW i p req h r base items hi hclient
    obtain ⟨item, state, rfl, hreturns⟩ := returns_ended hW hi hclient
    obtain ⟨client, R, hpermitted⟩ := hreturns.permitted
    refine ⟨item, state, hreturns.answerTo hW, ?_⟩
    rw [formPairs_redirectUrl hF (hpermitted.plain hU), present_sent, List.append_assoc]

theorem serverCrates_fragment : FragmentLaw Sample.serverCrates.toPlatform := by
  intro raw url h _
  have hparse : (if raw = "https://accounts.example/auth" then _ else
      if raw = "https://app.example/callback" then _ else none) = some url := h
  split at hparse
  · rename_i hraw
    rw [hraw]
    decide
  split at hparse
  · rename_i hraw
    rw [hraw]
    decide
  · cases hparse

theorem response_parameters_signIn :
    ∃ item state, ∃ req h, AnswerTo Sample.serverCrates (Sample.served Sample.signIn) req h
        "https://app.example/callback" item state ∧
      formPairs Sample.serverCrates (redirectUrl Sample.serverCrates "https://app.example/callback"
        [("code", some (Sample.secret 24)), ("state", some "a b"),
          ("iss", some "http://localhost")]) =
        formPairs Sample.serverCrates "https://app.example/callback" ++
          item :: state.toList.map (fun v => ("state", v)) ++ [("iss", "http://localhost")] := by
  obtain ⟨_, _, hruns⟩ := response_parameters Sample.serverCrates (Sample.formCrates_laws _)
    serverCrates_fragment
  obtain ⟨req, record, r, hW, hat, hclient⟩ := signIn_ended
  obtain ⟨item, state, hanswer, hread⟩ := hruns _ hW 1 _ req record r _ _ hat hclient
  exact ⟨item, state, req, record, hanswer, hread⟩

end Results

end Web

end Eri
