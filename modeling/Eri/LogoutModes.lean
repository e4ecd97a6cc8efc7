/-
  File:      Eri/LogoutModes.lean
  Subject:   The two ways to answer a logout challenge (src/logout.rs): the user confirms it, or
             an ID token of the session stands in for the confirmation.

  * `Answered`, `Hinted` -- what an answer finds, and what a hint has to show besides;
  * `finishInner_answers` -- how an answer ends, with a hint or without;
  * `Begun`, `begun_before` -- every challenge that is answered was begun by an earlier call;
  * **`logout_modes`** -- a hint logs out only where a confirmation would, with the same result,
    and what either leaves behind.
-/
import Eri.Revocation
import Eri.Policy

namespace Eri

open Sql

variable {P : Platform} {M : Machine schema Request Reply} {db db' : Db} {t : Tape}
variable {session : ProviderSession} {challenge : LogoutChallenge} {registry : ClientRegistry}

/-! ## 1. One answer -/

/-- The challenge an answer presents. -/
def presented (P : Platform) (session : ProviderSession) (challenge : LogoutChallenge) (db : Db) :
    Option LogoutRow :=
  (db.rows .logoutChallenges).find? fun r => r.id = challenge.id &&
    r.sessionId = session.id && r.csrfHash = secretHash P challenge.csrf

/-- **What an answer finds**: a live session and an open challenge of it. -/
structure Answered (P : Platform) (t : Tape) (session : ProviderSession)
    (challenge : LogoutChallenge) (registry : ClientRegistry) (db : Db) (s : SessionRow)
    (row : LogoutRow) : Prop where
  locked : findSession db session.id = some s
  presented : presented P session challenge db = some row
  active : s.active (t.now 0) = true
  pending : row.pending registry (t.now 0) = true

/-- **What a hint has to show** to stand in for a confirmation. -/
structure Hinted (t : Tape) (registry : ClientRegistry) (s : SessionRow) (row : LogoutRow)
    (hint : IdClaims) : Prop where
  allowed : registry.allowsIdTokenLogout row.clientId = true
  audience : hint.aud = row.clientId
  subject : hint.sub = s.userId
  session : hint.sid = some s.id
  interval : hint.iat < hint.exp
  notAhead : hint.iat ≤ timestamp (t.now 0) + 30
  notBefore : timestamp s.authTime - 30 ≤ hint.iat

/-- What an answer leaves. -/
def finishedRows (t : Tape) (session : ProviderSession) (challenge : LogoutChallenge) (db : Db) :
    Db :=
  loggedOutRows session.id (t.now 0) (.revoke (t.now 0))
    (db.update .logoutChallenges (fun r => r.id = challenge.id) (.consume (t.now 0)))

def LogoutRow.outcome (r : LogoutRow) : LogoutOutcome :=
  ⟨r.postLogoutRedirectUri, r.downstreamState⟩

/-- Two answers to one challenge find the same. -/
theorem Answered.same {s s' : SessionRow} {row row' : LogoutRow}
    (h : Answered P t session challenge registry db s row)
    (h' : Answered P t session challenge registry db s' row') : s' = s ∧ row' = row :=
  ⟨Option.some.inj (h'.locked.symm.trans h.locked),
    Option.some.inj (h'.presented.symm.trans h.presented)⟩

theorem hinted_iff {s : SessionRow} {row : LogoutRow} {hint : IdClaims} :
    Hinted t registry s row hint ↔
      hint.wellTimed row.clientId (t.now 0) = true ∧
        hint.confirms registry row.clientId s = true := by
  unfold IdClaims.wellTimed IdClaims.confirms
  simp only [Bool.and_eq_true, decide_eq_true_eq]
  constructor
  · intro h
    exact ⟨⟨⟨h.audience, h.interval⟩, h.notAhead⟩, ⟨⟨h.allowed, h.subject⟩, h.session⟩, h.notBefore⟩
  · rintro ⟨⟨⟨haud, hinterval⟩, hahead⟩, ⟨⟨hallowed, hsub⟩, hsid⟩, hbefore⟩
    exact ⟨hallowed, haud, hsub, hsid, hinterval, hahead, hbefore⟩

/-- **How an answer ends**, with a hint or without. -/
theorem finishInner_answers {hint : Option IdClaims}
    {r : Except CredentialError (Option LogoutOutcome)}
    (h : (finishInner P t session challenge registry hint).tx.run db = (r, db')) :
    (r = .error .invalidGrant ∧ db' = db ∧
      ∀ s row, Answered P t session challenge registry db s row → hint ≠ none) ∨
    ∃ s row, Answered P t session challenge registry db s row ∧
      ((r = .ok none ∧ db' = db ∧ hint ≠ none) ∨
        (r = .ok (some row.outcome) ∧ db' = finishedRows t session challenge db ∧
          ∀ h ∈ hint, Hinted t registry s row h)) := by
  refine Tx.run_of_post h ((post_lockOr ..).mpr ⟨fun s hs => ?_, fun hnone => ?_⟩)
  · refine (post_lockOr ..).mpr ⟨fun row hrow => ?_, fun hnone => ?_⟩
    · refine (post_ensure ..).mpr ⟨fun hopen => ?_, fun hclosed => ?_⟩
      · obtain ⟨hactive, hpending⟩ := (Bool.and_eq_true _ _ ▸ hopen :)
        have hanswered : Answered P t session challenge registry db s row :=
          ⟨hs, hrow, hactive, hpending⟩
        refine (post_ensure ..).mpr ⟨fun htimed => ?_, fun hno => ?_⟩
        · refine (post_ensure ..).mpr ⟨fun hconfirms => ?_, fun hno => ?_⟩
          · refine (post_update ..).mpr ((post_update ..).mpr
              ((post_updateEach ?_ ?_ ?_ t.scan_perm).mpr ?_))
            · exact fun _ => rfl
            · exact fun _ => rfl
            · exact fun _ => rfl
            · exact Or.inr ⟨s, row, hanswered, Or.inr ⟨rfl, rfl, fun h hh =>
                hinted_iff.mpr ⟨htimed h hh, hconfirms h hh⟩⟩⟩
          · refine Or.inr ⟨s, row, hanswered, Or.inl ⟨rfl, rfl, ?_⟩⟩
            rintro rfl
            exact hno fun _ hh => by cases hh
        · refine Or.inl ⟨rfl, rfl, fun _ _ _ => ?_⟩
          rintro rfl
          exact hno fun _ hh => by cases hh
      · refine Or.inl ⟨rfl, rfl, fun s' row' h' => ?_⟩
        obtain rfl : s' = s := Option.some.inj (h'.locked.symm.trans hs)
        obtain rfl : row' = row := Option.some.inj (h'.presented.symm.trans hrow)
        exact absurd (Bool.and_eq_true _ _ ▸ ⟨h'.active, h'.pending⟩) hclosed
    · refine Or.inl ⟨rfl, rfl, fun s' row' h' => ?_⟩
      have hsome : some row' = none := h'.presented.symm.trans hnone
      cases hsome
  · refine Or.inl ⟨rfl, rfl, fun s' row' h' => ?_⟩
    have hsome : some s' = none := h'.locked.symm.trans hnone
    cases hsome

/-- Without a hint an answer to an open challenge logs out. -/
theorem finish_answered {s : SessionRow} {row : LogoutRow}
    (h : Answered P t session challenge registry db s row) :
    (finish P t session challenge registry).run db =
      (.ok row.outcome, finishedRows t session challenge db) := by
  have hrun : (finish P t session challenge registry).run db =
      ((finishInner P t session challenge registry none).tx.run db).map
        (fun r => r.bind fun o => o.elim (.error .invalidGrant) .ok) id := run_map ..
  rw [hrun]
  rcases hinner : (finishInner P t session challenge registry none).tx.run db with ⟨r, db'⟩
  rcases finishInner_answers hinner with
    ⟨_, _, hnone⟩ | ⟨s', row', h', ⟨_, _, hnone⟩ | ⟨rfl, rfl, _⟩⟩
  · exact absurd rfl (hnone s row h)
  · exact absurd rfl hnone
  · obtain ⟨_, rfl⟩ := h.same h'
    rfl

/-- **How a confirmed logout ends.** -/
theorem finish_run {r : Except CredentialError LogoutOutcome}
    (h : (finish P t session challenge registry).run db = (r, db')) :
    ((∃ e, r = .error e) ∧ db' = db) ∨
      ∃ s row, Answered P t session challenge registry db s row ∧ r = .ok row.outcome ∧
        db' = finishedRows t session challenge db := by
  obtain ⟨x, hx, rfl⟩ := run_of_map h
  rcases finishInner_answers hx with
    ⟨rfl, hdb, _⟩ | ⟨s, row, hanswered, ⟨rfl, hdb, _⟩ | ⟨rfl, hdb, _⟩⟩
  · exact Or.inl ⟨⟨_, rfl⟩, hdb⟩
  · exact Or.inl ⟨⟨_, rfl⟩, hdb⟩
  · exact Or.inr ⟨s, row, hanswered, rfl, hdb⟩

/-! ## 2. What a success leaves -/

/-- **A success leaves nothing of the session**: it is revoked with its families, and the
    challenge is consumed. -/
theorem finishedRows_revoked {s : SessionRow} (h : findSession db session.id = some s) :
    SessionRevoked (finishedRows t session challenge db) session.id ∧
      (∀ f ∈ (finishedRows t session challenge db).rows .refreshFamilies,
        FamilyRow.sessionId f = session.id → (FamilyRow.revokedAt f).isSome = true) ∧
      ∀ r ∈ (finishedRows t session challenge db).rows .logoutChallenges,
        LogoutRow.id r = challenge.id → (LogoutRow.consumedAt r).isSome = true := by
  obtain ⟨hmem, hid⟩ := findSession_mem h
  refine ⟨?_, fun f hf hof => ?_, fun r hr hof => ?_⟩
  · rw [← hid]
    unfold finishedRows
    rw [← hid]
    refine sessionRevoked_logout ?_
    rwa [Db.update_rows_ne _ _ _ (by decide)]
  · unfold finishedRows loggedOutRows at hf
    rw [Db.update_rows_self] at hf
    obtain ⟨x, _, rfl⟩ := List.mem_map.mp hf
    by_cases hx : x.sessionId = session.id
    · simp [hx, FamilyRow.revoke]
    · simp [hx] at hof
  · unfold finishedRows loggedOutRows at hr
    rw [Db.update_rows_ne _ _ _ (by decide), Db.update_rows_ne _ _ _ (by decide),
      Db.update_rows_self] at hr
    obtain ⟨x, _, rfl⟩ := List.mem_map.mp hr
    by_cases hx : x.id = challenge.id
    · simp [hx, LogoutRow.consume]
    · simp [hx] at hof

/-! ## 3. Answers and challenges of a run -/

/-- The session, the challenge and the registry of an answer, and its hint. -/
def Call.answers : Call →
    Option (ProviderSession × LogoutChallenge × ClientRegistry × Option IdClaims)
  | .finish session challenge registry => some (session, challenge, registry, none)
  | .finishHint session challenge registry hint => some (session, challenge, registry, some hint)
  | _ => none

/-- Where a success sends the browser. -/
def Reply.outcome : Reply → Option LogoutOutcome
  | .finished (.ok outcome) => some outcome
  | .hinted (.ok outcome) => outcome
  | _ => none

/-- An answer that succeeds found its challenge. -/
theorem answers_run {c : Request} {r : Reply} {hint : Option IdClaims}
    (hc : c.call.answers = some (session, challenge, registry, hint))
    (h : (program P c).run db = (r, db')) (hr : r.isOk = true) :
    ∃ s row, Answered P c.tape session challenge registry db s row ∧
      ∀ outcome, r.outcome = some outcome → outcome = row.outcome := by
  obtain ⟨call, t⟩ := c
  cases call with
  | finish session challenge registry =>
      cases hc
      obtain ⟨x, hx, rfl⟩ := run_of_map h
      rcases finish_run hx with ⟨⟨e, rfl⟩, _⟩ | ⟨s, row, hanswered, rfl, _⟩
      · cases hr
      · exact ⟨s, row, hanswered, fun outcome e => (Option.some.inj e).symm⟩
  | finishHint session challenge registry hint =>
      cases hc
      obtain ⟨x, hx, rfl⟩ := run_of_map h
      rcases finishInner_answers hx with
        ⟨rfl, _⟩ | ⟨s, row, hanswered, ⟨rfl, _⟩ | ⟨rfl, _⟩⟩
      · cases hr
      · exact ⟨s, row, hanswered, fun outcome e => by cases e⟩
      · exact ⟨s, row, hanswered, fun outcome e => (Option.some.inj e).symm⟩
  | _ => cases hc

theorem logsOut_of_answers {c : Call} {hint : Option IdClaims}
    (hc : c.answers = some (session, challenge, registry, hint)) :
    c.logsOut = some session.id ∧ c.sessionOf = some session.id := by
  cases c with
  | finish | finishHint =>
      cases hc
      exact ⟨rfl, rfl⟩
  | _ => cases hc

theorem loggedOut_of_outcome {r : Reply} {outcome : LogoutOutcome}
    (h : r.outcome = some outcome) : r.loggedOut = true ∧ r.isOk = true := by
  unfold Reply.outcome at h
  split at h
  · exact ⟨rfl, rfl⟩
  · subst h
    exact ⟨rfl, rfl⟩
  · cases h

/-- **The call of `e` began the challenge**: for a client that may be returned to, or local. -/
inductive Begun (P : Platform) (e : Entry) (row : LogoutRow) : Prop
  | client (session : ProviderSession) (clientId redirect : String) (state : Option String)
      (registry : ClientRegistry)
      (call : e.call.call = .beginLogout session clientId redirect state registry)
      (ok : e.reply.isOk = true)
      (registered : registry.validPostLogoutRedirect clientId redirect = true)
      (row : row = .begin (e.call.tape.uuid 0) (e.call.tape.hash P 0) session.id clientId redirect
        state (e.call.tape.now 1))
  | here (session : ProviderSession) (localUri : String)
      (call : e.call.call = .beginLocal session localUri) (ok : e.reply.isOk = true)
      (row : row = .begin (e.call.tape.uuid 0) (e.call.tape.hash P 0) session.id "" localUri
        none (e.call.tape.now 1))

/-- A challenge that was at most consumed since. -/
def SameChallenge (r r' : LogoutRow) : Prop := r' = { r with consumedAt := r'.consumedAt }

theorem sameChallenge_consume (r : LogoutRow) (now : Time) : SameChallenge r (r.consume now) := rfl

/-- What an answer does to the challenges. -/
theorem finishedRows_same :
    ∀ r ∈ (finishedRows t session challenge db).rows .logoutChallenges,
      ∃ x ∈ db.rows .logoutChallenges, SameChallenge x r := by
  intro r hr
  unfold finishedRows loggedOutRows at hr
  rw [Db.update_rows_ne _ _ _ (by decide), Db.update_rows_ne _ _ _ (by decide),
    Db.update_rows_self] at hr
  obtain ⟨x, hx, rfl⟩ := List.mem_map.mp hr
  refine ⟨x, hx, ?_⟩
  split
  · exact sameChallenge_consume x _
  · rfl

/-- **A challenge is one that was there, or the call began it.** -/
theorem challenge_origin {e : Entry} (h : (program P e.call).run e.before = (e.reply, e.after)) :
    ∀ r ∈ e.after.rows .logoutChallenges,
      (∃ x ∈ e.before.rows .logoutChallenges, SameChallenge x r) ∨ Begun P e r := by
  obtain ⟨thread, ⟨call, t⟩, reply, before, after⟩ := e
  dsimp only at h ⊢
  have hframe : .logoutChallenges ∉ call.writes → ∀ r ∈ after.rows .logoutChallenges,
      (∃ x ∈ before.rows .logoutChallenges, SameChallenge x r) ∨
        Begun P ⟨thread, ⟨call, t⟩, reply, before, after⟩ r := by
    intro hw r hr
    have hrows := program_frame (P := P) (c := ⟨call, t⟩) hw before
    rw [h] at hrows
    exact Or.inl ⟨r, hrows ▸ hr, rfl⟩
  cases call with
  | beginLogout session clientId redirect state registry =>
      obtain ⟨x, hx, rfl⟩ := run_of_map h
      intro r hr
      rcases beginLogout_run hx with ⟨_, hsame⟩ | ⟨s, _, _, hvalid, rfl, hrows⟩
      · exact Or.inl ⟨r, hsame ▸ hr, rfl⟩
      · rw [hrows, Db.insert_rows_self] at hr
        rcases List.mem_append.mp hr with hold | hnew
        · exact Or.inl ⟨r, hold, rfl⟩
        · exact Or.inr (.client session clientId redirect state registry rfl rfl hvalid
            (List.mem_singleton.mp hnew))
  | beginLocal session localUri =>
      obtain ⟨x, hx, rfl⟩ := run_of_map h
      intro r hr
      rcases insertLogout_run hx with ⟨_, _, hsame⟩ | ⟨s, _, _, rfl, hrows⟩
      · exact Or.inl ⟨r, hsame ▸ hr, rfl⟩
      · rw [hrows, Db.insert_rows_self] at hr
        rcases List.mem_append.mp hr with hold | hnew
        · exact Or.inl ⟨r, hold, rfl⟩
        · exact Or.inr (.here session localUri rfl rfl (List.mem_singleton.mp hnew))
  | finish session challenge registry =>
      obtain ⟨x, hx, rfl⟩ := run_of_map h
      intro r hr
      rcases finish_run hx with ⟨_, hsame⟩ | ⟨_, _, _, _, hrows⟩
      · exact Or.inl ⟨r, hsame ▸ hr, rfl⟩
      · exact Or.inl (finishedRows_same r (hrows ▸ hr))
  | finishHint session challenge registry hint =>
      obtain ⟨x, hx, rfl⟩ := run_of_map h
      intro r hr
      rcases finishInner_answers hx with
        ⟨_, hsame, _⟩ | ⟨_, _, _, ⟨_, hsame, _⟩ | ⟨_, hrows, _⟩⟩
      · exact Or.inl ⟨r, hsame ▸ hr, rfl⟩
      · exact Or.inl ⟨r, hsame ▸ hr, rfl⟩
      · exact Or.inl (finishedRows_same r (hrows ▸ hr))
  | _ => exact hframe (by simp [Call.writes])

/-- **A challenge that a call finds was begun by an earlier one.** -/
theorem begun_before {e : Entry} (h : Reachable P M) (he : e ∈ M.log) :
    ∀ r ∈ e.before.rows .logoutChallenges,
      ∃ e₀, Before M e₀ e ∧ ∃ x, Begun P e₀ x ∧ SameChallenge x r := by
  refine reachable_origin_before (S := schema) (t := Table.logoutChallenges)
    (G := fun e r => ∃ x, Begun P e x ∧ SameChallenge x r) SameChallenge (lawful P) rfl
    (fun e r r' hG hl => ?_) (fun e _ hrun r hr => ?_) h he
  · obtain ⟨x, hx, hsame⟩ := hG
    refine ⟨x, hx, ?_⟩
    unfold SameChallenge at hsame hl ⊢
    rw [hl, hsame]
  · rcases challenge_origin hrun r hr with hold | hnew
    · exact Or.inl hold
    · exact Or.inr ⟨r, hnew, rfl⟩

/-- Only a client of the configuration can log out with an ID token. -/
theorem allowsIdTokenLogout_static {R : ClientRegistry} (hR : R.Built P) {clientId : String}
    (h : R.allowsIdTokenLogout clientId = true) : R.dynamicFor clientId = none := by
  cases hR with
  | new _ hnew =>
      unfold ClientRegistry.new ClientRegistry.build at hnew
      split at hnew
      · cases hnew
        rfl
      · cases hnew
  | withIssuer _ hnew =>
      unfold ClientRegistry.withIssuer ClientRegistry.build at hnew
      split at hnew
      · split at hnew
        · cases hnew
          rfl
        · cases hnew
      · cases hnew
  | @projectCimd _ _ _ snapshot _ _ _ hR hproject =>
      obtain ⟨client, hprojected⟩ := projectCimd_projected hproject
      by_cases hid : clientId = snapshot.document.clientId
      · -- the added client always asks
        unfold ClientRegistry.allowsIdTokenLogout at h
        rw [hid, hprojected.get_self, Option.any_some, hprojected.logoutFlow] at h
        exact absurd h (by decide)
      · exact hprojected.dynamicFor_other hid

/-- No client without an id may be returned to. -/
theorem validPostLogoutRedirect_named {R : ClientRegistry} (hR : R.Built P) {clientId uri : String}
    (h : R.validPostLogoutRedirect clientId uri = true) : clientId ≠ "" := by
  rintro rfl
  unfold ClientRegistry.validPostLogoutRedirect at h
  cases hget : R.get "" with
  | none =>
      rw [hget] at h
      cases h
  | some c => exact (hR.get hget).named (ClientRegistry.get_id hget)

/-! ## 4. Both modes -/

/-- **An answer fails once its session is logged out**, also an answer to another challenge. -/
theorem answers_after {e e' : Entry} {session' : ProviderSession} {challenge' : LogoutChallenge}
    {registry' : ClientRegistry} {hint hint' : Option IdClaims} {outcome : LogoutOutcome}
    (h : Reachable P M) (hs : Before M e e')
    (hc : e.call.call.answers = some (session, challenge, registry, hint))
    (ho : e.reply.outcome = some outcome)
    (hc' : e'.call.call.answers = some (session', challenge', registry', hint'))
    (hof : session'.id = session.id ∨ ∃ row ∈ M.db.rows .logoutChallenges,
      LogoutRow.id row = challenge'.id ∧ LogoutRow.sessionId row = session.id) :
    e'.reply.isOk = false := by
  have he : e ∈ M.log := hs.subset (by simp)
  have he' : e' ∈ M.log := hs.subset (by simp)
  by_contra hok
  rw [Bool.not_eq_false] at hok
  obtain ⟨s, row, hanswered, _⟩ := answers_run hc' (reachable_entry (lawful P) h he').2 hok
  -- the challenge that was found belongs to the session it was answered with
  have hsession : session'.id = session.id := by
    rcases hof with hsame | ⟨row', hrow', hid, hrow⟩
    · exact hsame
    · have hfound := List.find?_some hanswered.presented
      simp only [Bool.and_eq_true, decide_eq_true_eq] at hfound
      obtain ⟨later, hlater, hl⟩ := entry_progress h he' .logoutChallenges row
        (List.mem_of_find?_eq_some hanswered.presented)
      have hkeeps := LogoutRow.Later.keeps hl
      have hlaterId : LogoutRow.id later = challenge'.id := by
        rw [hkeeps]
        exact hfound.1.1
      have hsame : later = row' :=
        same_key (reachable_integrity h) hlater hrow' (hlaterId.trans hid.symm)
      rw [← hfound.1.2, ← hrow, ← hsame, hkeeps]
  have hafter : SessionRevoked e.after session.id :=
    logsOut_revoked (reachable_entry (lawful P) h he).2 (logsOut_of_answers hc).1
      (loggedOut_of_outcome ho).1
  have hbefore := kept_between (lawful P) (sessionRevoked_kept session.id) h hs hafter
  have hfail := actsFor_live h he' hbefore
    (Or.inl (hsession ▸ (logsOut_of_answers hc').2))
  rw [hok] at hfail
  cases hfail

/-- **A success returns where its challenge was begun for.** -/
theorem answers_redirect {e : Entry} {hint : Option IdClaims} {outcome : LogoutOutcome}
    (h : Reachable P M) (he : e ∈ M.log)
    (hc : e.call.call.answers = some (session, challenge, registry, hint))
    (ho : e.reply.outcome = some outcome) :
    ∃ e₀, Before M e₀ e ∧ e₀.reply.isOk = true ∧ e₀.call.tape.uuid 0 = challenge.id ∧
      ((∃ session₀, e₀.call.call = .beginLocal session₀ outcome.redirectUri ∧
        session₀.id = session.id) ∨
      ∃ session₀ clientId registry₀, e₀.call.call = .beginLogout session₀ clientId
          outcome.redirectUri outcome.state registry₀ ∧ session₀.id = session.id ∧
        registry₀.validPostLogoutRedirect clientId outcome.redirectUri = true ∧
        (registry₀.Built P →
          registry.validPostLogoutRedirect clientId outcome.redirectUri = true)) := by
  obtain ⟨s, row, hanswered, houtcome⟩ := answers_run hc (reachable_entry (lawful P) h he).2
    (loggedOut_of_outcome ho).2
  obtain rfl := houtcome outcome ho
  have hfound := List.find?_some hanswered.presented
  simp only [Bool.and_eq_true, decide_eq_true_eq] at hfound
  obtain ⟨⟨hid, hof⟩, _⟩ := hfound
  have hpending := hanswered.pending
  unfold LogoutRow.pending at hpending
  simp only [Bool.and_eq_true, Bool.or_eq_true] at hpending
  obtain ⟨e₀, hbefore, x, hbegun, hsame⟩ := begun_before h he row
    (List.mem_of_find?_eq_some hanswered.presented)
  unfold SameChallenge at hsame
  rw [hsame] at hid hof hpending ⊢
  cases hbegun with
  | client session₀ clientId redirect state registry₀ hcall hok hregistered hx =>
      subst hx
      refine ⟨e₀, hbefore, hok, hid, Or.inr ⟨session₀, clientId, registry₀, hcall, hof,
        hregistered, fun hbuilt => ?_⟩⟩
      rcases hpending.2 with hempty | hvalid
      · have hnone : clientId = "" := by simpa [LogoutRow.begin] using hempty
        exact absurd hnone (validPostLogoutRedirect_named hbuilt hregistered)
      · exact hvalid
  | here session₀ localUri hcall hok hx =>
      subst hx
      exact ⟨e₀, hbefore, hok, hid, Or.inl ⟨session₀, hcall, hof⟩⟩

/-- **Automatic logout refines confirmed logout.** On any rows: where a hint logs out, the
    confirmation has the same result, the hint shows what it has to show, and the client's own
    policy allows it; otherwise nothing changes, and every answer ends as it would have ended.
    A success revokes the session and its families and consumes the challenge. In every run, no
    answer to a challenge of a session succeeds after one that logged the session out, and a
    success returns to the URI its challenge was begun with, local or registered. -/
theorem logout_modes (P : Platform) :
    (∀ (db : Db) (t : Tape) (session : ProviderSession) (challenge : LogoutChallenge)
      (registry : ClientRegistry) (hint : IdClaims) r db',
      (finishHint P t session challenge registry hint).tx.run db = (r, db') →
      (∀ outcome, r = .ok (some outcome) →
        (finish P t session challenge registry).run db = (.ok outcome, db') ∧
        ∃ s row, Answered P t session challenge registry db s row ∧
          Hinted t registry s row hint ∧
          (registry.Built P → registry.dynamicFor row.clientId = none)) ∧
      (r = .ok none ∨ (∃ e, r = .error e) → db' = db ∧
        ∀ t' session' challenge' registry',
          (finish P t' session' challenge' registry').run db' =
            (finish P t' session' challenge' registry').run db)) ∧
    (∀ (db : Db) (t : Tape) (session : ProviderSession) (challenge : LogoutChallenge)
      (registry : ClientRegistry) outcome db',
      (finish P t session challenge registry).run db = (.ok outcome, db') →
      (∃ s row, Answered P t session challenge registry db s row ∧
        outcome = ⟨row.postLogoutRedirectUri, row.downstreamState⟩) ∧
      SessionRevoked db' session.id ∧
      (∀ f ∈ db'.rows .refreshFamilies, FamilyRow.sessionId f = session.id →
        (FamilyRow.revokedAt f).isSome = true) ∧
      ∀ row ∈ db'.rows .logoutChallenges, LogoutRow.id row = challenge.id →
        (LogoutRow.consumedAt row).isSome = true) ∧
    ∀ M, Reachable P M → ∀ e ∈ M.log, ∀ session challenge registry hint outcome,
      e.call.call.answers = some (session, challenge, registry, hint) →
      e.reply.outcome = some outcome →
      (∀ e', Before M e e' → ∀ session' challenge' registry' hint',
        e'.call.call.answers = some (session', challenge', registry', hint') →
        (session'.id = session.id ∨ ∃ row ∈ M.db.rows .logoutChallenges,
          LogoutRow.id row = challenge'.id ∧ LogoutRow.sessionId row = session.id) →
        e'.reply.isOk = false) ∧
      ∃ e₀, Before M e₀ e ∧ e₀.reply.isOk = true ∧ e₀.call.tape.uuid 0 = challenge.id ∧
        ((∃ session₀, e₀.call.call = .beginLocal session₀ outcome.redirectUri ∧
          session₀.id = session.id) ∨
        ∃ session₀ clientId registry₀, e₀.call.call = .beginLogout session₀ clientId
            outcome.redirectUri outcome.state registry₀ ∧ session₀.id = session.id ∧
          registry₀.validPostLogoutRedirect clientId outcome.redirectUri = true ∧
          (registry₀.Built P →
            registry.validPostLogoutRedirect clientId outcome.redirectUri = true)) := by
  refine ⟨fun db t session challenge registry hint r db' h => ⟨fun outcome hr => ?_, fun hr => ?_⟩,
    fun db t session challenge registry outcome db' h => ?_,
    fun M h e he session challenge registry hint outcome hc ho =>
      ⟨fun e' hs session' challenge' registry' hint' hc' hof =>
        answers_after h hs hc ho hc' hof, answers_redirect h he hc ho⟩⟩
  · subst hr
    rcases finishInner_answers h with ⟨hr, _⟩ | ⟨s, row, hanswered, ⟨hr, _⟩ | ⟨hr, rfl, hhint⟩⟩
    · cases hr
    · cases hr
    · cases hr
      have hshown : Hinted t registry s row hint := hhint hint rfl
      exact ⟨finish_answered hanswered, s, row, hanswered, hshown,
        fun hbuilt => allowsIdTokenLogout_static hbuilt hshown.allowed⟩
  · have hsame : db' = db := by
      rcases finishInner_answers h with ⟨_, hdb, _⟩ | ⟨_, _, _, ⟨_, hdb, _⟩ | ⟨rfl, _⟩⟩
      · exact hdb
      · exact hdb
      · rcases hr with hr | ⟨e, hr⟩ <;> cases hr
    exact ⟨hsame, fun _ _ _ _ => hsame ▸ rfl⟩
  · rcases finish_run h with ⟨⟨e, hr⟩, _⟩ | ⟨s, row, hanswered, hr, rfl⟩
    · cases hr
    · cases hr
      exact ⟨⟨s, row, hanswered, rfl⟩, finishedRows_revoked hanswered.locked⟩

namespace Sample

/-- The client of the grant, when an ID token is enough to leave it. -/
def leaver : FirstPartyClient :=
  { client with
    postLogoutRedirects := {"https://app.example/bye"}
    logoutFlow := .idTokenHint }

def leaverRegistry : ClientRegistry := ⟨[leaver], none, none, by decide⟩

/-- An ID token of the session. -/
def hint : IdClaims := ⟨some 2, 1, "app", 60, 1⟩

/-- A user leaves a client with an ID token, while a confirmation page is open. -/
def hintSteps : List Step :=
  grantSteps.take 2 ++
    [(.beginLogout ⟨"session", 2, 3601 * second⟩ "app" "https://app.example/bye" none
        leaverRegistry, [.logout]),
     (.beginLocal ⟨"session", 2, 3601 * second⟩ "https://id.example/", [.last]),
     (.finishHint ⟨"session", 2, 3601 * second⟩ ⟨4, "logout", ""⟩ leaverRegistry hint, [.late]),
     (.finish ⟨"session", 2, 3601 * second⟩ ⟨6, "last", ""⟩ leaverRegistry, [.csrf])]

end Sample

/-- The hint logs out, as a confirmation of the page would have, and returns to the client; the
    open page is of no use any more. -/
theorem logout_modes_hint :
    (Sample.machine Sample.hintSteps).log.map (fun e => e.reply.isOk) =
      [true, true, true, true, true, false] ∧
    (∃ e ∈ (Sample.machine Sample.hintSteps).log,
      (e.reply.outcome.map (·.redirectUri)) = some "https://app.example/bye" ∧
      ∃ e₀, Before (Sample.machine Sample.hintSteps) e₀ e ∧ e₀.call.tape.uuid 0 = 4) ∧
    ∃ outcome db',
      (finishHint Sample.platform (Sample.tape 4 [.late]) ⟨"session", 2, 3601 * second⟩
        ⟨4, "logout", ""⟩ Sample.leaverRegistry Sample.hint).tx.run
          (Sample.machine (Sample.hintSteps.take 4)).db = (.ok (some outcome), db') ∧
      (finish Sample.platform (Sample.tape 4 [.late]) ⟨"session", 2, 3601 * second⟩
        ⟨4, "logout", ""⟩ Sample.leaverRegistry).run
          (Sample.machine (Sample.hintSteps.take 4)).db = (.ok outcome, db') ∧
      SessionRevoked db' 2 := by
  have hreach : Reachable Sample.platform (Sample.machine Sample.hintSteps) :=
    Sample.reachable (by decide)
  obtain ⟨hlog, ⟨e, he, hc, ho⟩, hleaves⟩ :
      (Sample.machine Sample.hintSteps).log.map (fun e => e.reply.isOk) =
        [true, true, true, true, true, false] ∧
      (∃ e ∈ (Sample.machine Sample.hintSteps).log,
        ((e.call.call.answers.map (·.2.1.id)) = some 4) ∧
        (e.reply.outcome.map (·.redirectUri)) = some "https://app.example/bye") ∧
      ((finishHint Sample.platform (Sample.tape 4 [.late]) ⟨"session", 2, 3601 * second⟩
        ⟨4, "logout", ""⟩ Sample.leaverRegistry Sample.hint).tx.run
          (Sample.machine (Sample.hintSteps.take 4)).db).1.toOption.join.isSome = true := by
    decide +kernel
  obtain ⟨hhint, hfinish, hruns⟩ := logout_modes Sample.platform
  refine ⟨hlog, ⟨e, he, ho, ?_⟩, ?_⟩
  · obtain ⟨⟨session, challenge, registry, hint⟩, hanswers, hid⟩ := Option.map_eq_some_iff.mp hc
    obtain ⟨outcome, houtcome, _⟩ := Option.map_eq_some_iff.mp ho
    obtain ⟨_, e₀, hbefore, _, hdrawn, _⟩ := hruns _ hreach e he session challenge registry hint
      outcome hanswers houtcome
    exact ⟨e₀, hbefore, hdrawn.trans hid⟩
  · generalize hrun : (finishHint Sample.platform (Sample.tape 4 [.late])
      ⟨"session", 2, 3601 * second⟩ ⟨4, "logout", ""⟩ Sample.leaverRegistry Sample.hint).tx.run
        (Sample.machine (Sample.hintSteps.take 4)).db = out at hleaves
    obtain ⟨r, db'⟩ := out
    match r with
    | .error _ | .ok none => cases hleaves
    | .ok (some outcome) =>
        obtain ⟨hsame, _⟩ := (hhint _ _ _ _ _ _ _ _ hrun).1 outcome rfl
        exact ⟨outcome, db', rfl, hsame, (hfinish _ _ _ _ _ _ _ hsame).2.1⟩

end Eri
