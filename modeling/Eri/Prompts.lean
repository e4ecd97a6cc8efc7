/-
  File:      Eri/Prompts.lean
  Subject:   What `authorize_valid` decides by `prompt` and `max_age` (src/web.rs), whatever the
             stores and the clocks answer.

  * `Refused`, `Live`, `Recent` -- prompts that are errors, and what a request must have been
    told of a session;
  * `MayDecide`, `Decided` -- the calls it makes, and its answer;
  * `prompt_decisions` -- **every request is decided so**.
-/
import Eri.Specs.Web

namespace Eri

/-- The session a call acts for. -/
def Call.actsFor : Call → Option ProviderSession
  | .sessionUpstreamAuthTime session | .beginAuthenticated session .. | .approve session ..
  | .approvePreAuthorized session .. | .consentView session .. | .deny session .. => some session
  | _ => none

namespace Web

open Sql.Process

/-! ## 1. Requests -/

/-- The parameter is there, once or more often. -/
def Given (q : List (String × String)) (name : String) : Prop := ∃ e ∈ q, e.1 = name

/-- Prompts that are an error: login, an unknown or combined one, or more than one. -/
def Refused (q : List (String × String)) : Prop :=
  1 < (q.filter fun e => e.1 = "prompt").length ∨
    ∃ v, one q "prompt" = some v ∧ v ∉ ["none", "consent", "select_account"]

theorem optional_ok {q : List (String × String)} {name : String} {v : Option String}
    (h : optional q name = .ok v) :
    (q.filter fun e => e.1 = name).length ≤ 1 ∧ one q name = v := by
  unfold optional at h
  split at h
  · cases h
  · cases h
    exact ⟨Nat.not_lt.mp ‹_›, rfl⟩

/-- A parameter that is given at most once has a value if it is given. -/
theorem one_of_given {q : List (String × String)} {name : String}
    (h : (q.filter fun e => e.1 = name).length ≤ 1) (hg : Given q name) :
    ∃ v, one q name = some v := by
  obtain ⟨e, he, hname⟩ := hg
  have hmem : e ∈ q.filter fun e => e.1 = name :=
    List.mem_filter.mpr ⟨he, decide_eq_true hname⟩
  unfold one
  split
  · exact ⟨_, rfl⟩
  rename_i hother
  match hq : q.filter fun e => e.1 = name with
  | [] =>
      rw [hq] at hmem
      cases hmem
  | [x] => exact absurd hq (hother x)
  | x :: y :: rest =>
      rw [hq] at h
      simp at h

/-- **The prompt and the age of a request that reads well.** -/
theorem readAuthorize_prompt {q : List (String × String)} {a : AuthorizeParams}
    (ha : readAuthorize q = .ok a) :
    one q "prompt" = a.prompt ∧ (Refused q → a.prompt = some "login") ∧
      (Given q "max_age" → ∃ n, readMaxAge (one q "max_age") = .ok (some n) ∧
        a.maxAge = some n) := by
  have hreads := readAuthorize_reads ha
  obtain ⟨honce, hone⟩ := optional_ok hreads.prompt
  obtain ⟨age, hage, hmaxAge⟩ := hreads.maxAge
  obtain ⟨hageOnce, hageOne⟩ := optional_ok hage
  refine ⟨hone, fun hrefused => ?_, fun hgiven => ?_⟩
  · rcases hrefused with hmany | ⟨v, hv, hunknown⟩
    · omega
    · have hprompt : a.prompt = some v := hone.symm.trans hv
      have hv := hreads.known v hprompt
      simp only [List.mem_cons, List.not_mem_nil, or_false, not_or] at hv hunknown
      rcases hv with h | h | h | h
      · exact absurd h hunknown.1
      · exact absurd h hunknown.2.1
      · rw [hprompt, h]
      · exact absurd h hunknown.2.2
  · obtain ⟨v, hv⟩ := one_of_given hageOnce hgiven
    rw [← hageOne, hv] at hmaxAge
    rw [hv]
    unfold readMaxAge at hmaxAge ⊢
    dsimp only at hmaxAge ⊢
    split at hmaxAge
    · exact ⟨_, rfl, (Except.ok.inj hmaxAge).symm⟩
    · cases hmaxAge

/-! ## 2. Decisions -/

/-- The session was found by its cookie. -/
def Live (h : Record) (session : ProviderSession) : Prop :=
  ∃ n raw, .called n (.findProviderSession raw) ∈ h ∧
    .replied n (some (.session (.ok session))) ∈ h

/-- The session has an upstream login, at most `maxAge` whole seconds ago. -/
def Recent (h : Record) (maxAge : Nat) (session : ProviderSession) : Prop :=
  ∃ n, ∃ authTime now : Time, .called n (.sessionUpstreamAuthTime session) ∈ h ∧
    .replied n (some (.authTime (.ok (some authTime)))) ∈ h ∧
    .answered (I := surroundings) Ask.now now ∈ h ∧ (now - authTime).tdiv second ≤ maxAge

/-- No transaction was started. -/
def Idle (h : Record) : Prop := ∀ n call, .called n call ∈ h → call.begins = none

/-- A redirect with a code. -/
def IsCode (p : Provider) (r : Response) : Prop :=
  ∃ base state code, r = codeRedirect base state p.issuer code

/-- **The calls `authorize_valid` may make**: for a session only if it was found and no account
    is to be selected; to start a transaction only under a prompt that is no error and, when an
    age is given, for a session that is recent enough. -/
structure MayDecide (q : List (String × String)) (h : Record) (call : Call) : Prop where
  session : ∀ s, call.actsFor = some s → Live h s ∧ one q "prompt" ≠ some "select_account"
  begins : call.begins.isSome → ¬Refused q ∧ (Given q "max_age" → ∃ n s,
    readMaxAge (one q "max_age") = .ok (some n) ∧ call.actsFor = some s ∧ Recent h n s)

/-- **What `authorize_valid` answers.** -/
structure Decided (C : HttpCrates) (p : Provider) (R : ClientRegistry)
    (q : List (String × String)) (h : Record) (result : Except String Response) : Prop where
  none : one q "prompt" = some "none" → ∀ r, result = .ok r → IsCode p r
  refused : Refused q → ∃ e, result = .error e
  /-- An otherwise valid request with an age and without a session that is recent enough. -/
  stale : ∀ a n now pending, readAuthorize q = .ok a → a.maxAge = some n →
    .answered (I := surroundings) Ask.instant now ∈ h →
    R.validatePending C.toPlatform now a.request = .ok pending → (∀ s, ¬Recent h n s) →
    result = .error "login_required" ∧ Idle h
  code : ∀ r, result = .ok r → IsCode p r → ∃ a now pending session,
    readAuthorize q = .ok a ∧ R.validatePending C.toPlatform now a.request = .ok pending ∧
    R.preAuthorizes pending = true ∧ Live h session ∧ one q "prompt" ≠ some "consent" ∧
    one q "prompt" ≠ some "select_account" ∧
    (Given q "max_age" → ∃ n, readMaxAge (one q "max_age") = .ok (some n) ∧ Recent h n session)

theorem Live.mono {h h' : Record} {s : ProviderSession} (hl : Live h s) (hh : h <+: h') :
    Live h' s := by
  obtain ⟨n, raw, hcall, hreply⟩ := hl
  exact ⟨n, raw, hh.subset hcall, hh.subset hreply⟩

theorem Recent.mono {h h' : Record} {n : Nat} {s : ProviderSession} (hr : Recent h n s)
    (hh : h <+: h') : Recent h' n s := by
  obtain ⟨m, authTime, now, hcall, hreply, hnow, hle⟩ := hr
  exact ⟨m, authTime, now, hh.subset hcall, hh.subset hreply, hh.subset hnow, hle⟩

/-- A call that acts for no session and starts nothing. -/
theorem MayDecide.plain {q : List (String × String)} {h : Record} {call : Call}
    (hsession : call.actsFor = none) (hbegins : call.begins = none) : MayDecide q h call where
  session s e := by
    rw [hsession] at e
    cases e
  begins e := by
    rw [hbegins] at e
    cases e

/-- A call for the session that was found. -/
theorem MayDecide.acts {q : List (String × String)} {h : Record} {call : Call}
    {session : ProviderSession} (hsession : call.actsFor = some session)
    (hbegins : call.begins = none) (hlive : Live h session)
    (hselect : one q "prompt" ≠ some "select_account") : MayDecide q h call where
  session s e := by
    rw [hsession] at e
    cases e
    exact ⟨hlive, hselect⟩
  begins e := by
    rw [hbegins] at e
    cases e

theorem Idle.answered {h : Record} {x : surroundings.Ask} {a : surroundings.Answer x}
    (hi : Idle h) : Idle (h ++ [.answered x a]) := by
  intro n call hcall
  rcases List.mem_append.mp hcall with hcall | hcall
  · exact hi n call hcall
  · cases List.mem_singleton.mp hcall

theorem Idle.called {h : Record} {m : Nat} {c : Call} {r : Option Reply} (hi : Idle h)
    (hc : c.begins = none) : Idle (h ++ [.called m c, .replied m r]) := by
  intro n call hcall
  rcases List.mem_append.mp hcall with hcall | hcall
  · exact hi n call hcall
  · rcases List.mem_cons.mp hcall with hcall | hcall
    · cases hcall
      exact hc
    · cases List.mem_singleton.mp hcall

/-! ## 3. Answers -/

section Answers

variable {C : HttpCrates} {p : Provider} {R : ClientRegistry} {q : List (String × String)}
  {a : AuthorizeParams} {h : Record}

theorem not_refused (ha : readAuthorize q = .ok a) (hlogin : a.prompt ≠ some "login") :
    ¬Refused q := fun hrefused => hlogin ((readAuthorize_prompt ha).2.1 hrefused)

/-- An error: with an age it comes from a session that is recent enough, or is the one for a
    login and no transaction was started. -/
theorem decided_error {e : String} (ha : readAuthorize q = .ok a)
    (hage : ∀ n, a.maxAge = some n →
      (∃ s, Recent h n s) ∨ e = "login_required" ∧ Idle h) :
    Decided C p R q h (.error e) where
  none _ _ := nofun
  refused _ := ⟨e, rfl⟩
  stale a' n now pending ha' hn hnow hpending hstale := by
    obtain rfl : a = a' := Except.ok.inj (ha.symm.trans ha')
    rcases hage n hn with ⟨s, hs⟩ | ⟨rfl, hidle⟩
    · exact absurd hs (hstale s)
    · exact ⟨rfl, hidle⟩
  code _ := nofun

/-- A page. -/
theorem decided_page {r : Response} (ha : readAuthorize q = .ok a)
    (hpage : r.page.client = none) (hnone : a.prompt ≠ some "none")
    (hlogin : a.prompt ≠ some "login") (hage : ∀ n, a.maxAge = some n → ∃ s, Recent h n s) :
    Decided C p R q h (.ok r) where
  none hq := absurd ((readAuthorize_prompt ha).1.symm.trans hq) hnone
  refused hrefused := absurd hrefused (not_refused ha hlogin)
  stale a' n now pending ha' hn hnow hpending hstale := by
    obtain rfl : a = a' := Except.ok.inj (ha.symm.trans ha')
    obtain ⟨s, hs⟩ := hage n hn
    exact absurd hs (hstale s)
  code r' e hcode := by
    cases e
    obtain ⟨base, state, code, rfl⟩ := hcode
    cases hpage

/-- A code. -/
theorem decided_code {r : Response} {now : Instant} {pending : PendingAuthorizationGrant}
    {session : ProviderSession} (ha : readAuthorize q = .ok a)
    (hpending : R.validatePending C.toPlatform now a.request = .ok pending)
    (hcode : IsCode p r) (hallow : a.allows R pending = true) (hlive : Live h session)
    (hselect : a.prompt ≠ some "select_account") (hlogin : a.prompt ≠ some "login")
    (hage : ∀ n, a.maxAge = some n → Recent h n session) :
    Decided C p R q h (.ok r) where
  none _ r' e := by
    cases e
    exact hcode
  refused hrefused := absurd hrefused (not_refused ha hlogin)
  stale a' n now' pending' ha' hn hnow' hpending' hstale := by
    obtain rfl : a = a' := Except.ok.inj (ha.symm.trans ha')
    exact absurd (hage n hn) (hstale session)
  code r' e _ := by
    obtain ⟨hprompt, _, hgiven⟩ := readAuthorize_prompt ha
    unfold AuthorizeParams.allows at hallow
    rw [Bool.and_eq_true, bne_iff_ne] at hallow
    refine ⟨a, now, pending, session, ha, hpending, hallow.2, hlive, ?_, ?_, fun hg => ?_⟩
    · rw [hprompt]
      exact hallow.1
    · rw [hprompt]
      exact hselect
    · obtain ⟨n, hread, hn⟩ := hgiven hg
      exact ⟨n, hread, hage n hn⟩

end Answers

/-! ## 4. Parts of `authorize_valid` -/

section Parts

variable {C : HttpCrates} {p : Provider} {R : ClientRegistry} {q : List (String × String)}
  {a : AuthorizeParams} {pending : PendingAuthorizationGrant} {session : ProviderSession}
  {h : Record} {ok : (x : surroundings.Ask) → surroundings.Answer x → Prop}

/-- **The session of the request**: it was found, and nothing was started yet. -/
theorem sessionFrom_decides {headers : HeaderMap} {Q : Record → Option ProviderSession → Prop}
    (hidle : Idle h)
    (hsome : ∀ h' s, h <+: h' → Idle h' → Live h' s → Q h' (some s))
    (hnone : ∀ h', h <+: h' → Idle h' → Q h' none) :
    Meets (I := surroundings) ok (MayDecide q) (sessionFrom p headers) h Q := by
  unfold sessionFrom
  split
  · exact hnone h (List.prefix_refl h) hidle
  rename_i raw _
  refine meets_map.mpr (meets_called (.plain rfl rfl) (fun n r s hr => ?_) fun n r e => ?_)
  · refine hsome _ s (List.prefix_append ..) (hidle.called rfl) ⟨n, raw, ?_, ?_⟩
    · exact List.mem_append_right _ List.mem_cons_self
    · have hfound : r = .session (.ok s) := by
        cases r with
        | session x =>
            cases x <;> cases hr
            rfl
        | _ => cases hr
      rw [hfound]
      exact List.mem_append_right _ (List.mem_cons_of_mem _ List.mem_cons_self)
  · exact hnone _ (List.prefix_append ..) (hidle.called rfl)

/-- **The age of a session**: without an error it is recent enough. -/
theorem checkMaxAge_decides {Q : Record → Except String Unit → Prop} (hlive : Live h session)
    (hselect : one q "prompt" ≠ some "select_account") (hidle : Idle h)
    (hok : ∀ h', h <+: h' → Idle h' → (∀ n, a.maxAge = some n → Recent h' n session) →
      Q h' (.ok ()))
    (herr : ∀ h', Idle h' → Q h' (.error "login_required")) :
    Meets (I := surroundings) ok (MayDecide q) (checkMaxAge a session).run h Q := by
  unfold checkMaxAge
  split
  · rename_i hnone
    refine hok h (List.prefix_refl h) hidle fun n hn => ?_
    rw [hnone] at hn
    cases hn
  rename_i maxAge hmaxAge
  refine meets_bindE.mpr (meets_calledOr (.acts rfl rfl hlive hselect) (fun n r x hr => ?_)
    fun n r => herr _ (hidle.called rfl))
  have htold : r = .authTime (.ok x) := by
    cases r <;> cases hr
    rfl
  subst htold
  cases x with
  | none => exact herr _ (hidle.called rfl)
  | some authTime =>
      refine meets_bindE.mpr (meets_liftE.mpr (meets_request.mpr fun now _ => ?_))
      dsimp only
      split
      · exact herr _ (Idle.answered (hidle.called rfl))
      · rename_i hle
        refine hok _ ?_ (Idle.answered (hidle.called rfl)) fun n' hn' => ?_
        · rw [List.append_assoc]
          exact List.prefix_append ..
        · rw [hmaxAge] at hn'
          cases hn'
          refine ⟨n, authTime, now, ?_, ?_, ?_, Int.not_lt.mp hle⟩
          · exact List.mem_append_left _ (List.mem_append_right _ List.mem_cons_self)
          · exact List.mem_append_left _
              (List.mem_append_right _ (List.mem_cons_of_mem _ List.mem_cons_self))
          · exact List.mem_append_right _ List.mem_cons_self

/-- The consent page. -/
theorem consentPage_decides {handle : ConsentHandle} {Q : Record → Response → Prop}
    (hlive : Live h session) (hselect : one q "prompt" ≠ some "select_account")
    (hQ : ∀ h' r, h <+: h' → r.page.client = none → Q h' r) :
    Meets (I := surroundings) ok (MayDecide q) (consentPage session handle) h Q := by
  unfold consentPage
  refine meets_bind.mpr (meets_attemptsFor (.plain rfl rfl) (fun h₁ client R hh₁ _ _ => ?_)
    fun h' e hh => hQ h' _ hh rfl)
  refine meets_store (.acts rfl rfl (hlive.mono hh₁) hselect) (fun n r x _ y hy => ?_)
    fun h' e _ x hx => by cases hx
  exact hQ _ _ (hh₁.trans (List.prefix_append ..)) rfl

/-- **A code at once**, or a page if the prompt allows one. -/
theorem approveAtOnce_decides {allow : Bool} {handle : ConsentHandle}
    {Q : Record → Except String (Option Response) → Prop} (hlive : Live h session)
    (hselect : one q "prompt" ≠ some "select_account")
    (hsome : ∀ h' r, h <+: h' → allow = true → IsCode p r → Q h' (.ok (some r)))
    (hnone : ∀ h', h <+: h' → allow = false ∨ a.prompt ≠ some "none" → Q h' (.ok none))
    (herr : ∀ h' e, h <+: h' → Q h' (.error e)) :
    Meets (I := surroundings) ok (MayDecide q) (approveAtOnce p R a allow session handle).run h
      Q := by
  unfold approveAtOnce
  split
  · rename_i hallow
    refine meets_bindE.mpr (meets_storeOr (.acts rfl rfl hlive hselect) (fun n r x hx => ?_)
      fun h' hh => herr h' _ hh)
    cases x with
    | some outcome => exact hsome _ _ (List.prefix_append ..) hallow ⟨_, _, _, rfl⟩
    | none =>
        dsimp only
        split
        · exact herr _ _ (List.prefix_append ..)
        · exact hnone _ (List.prefix_append ..) (Or.inr ‹_›)
  · rename_i hallow
    exact hnone h (List.prefix_refl h) (Or.inl (Bool.eq_false_iff.mpr hallow))

/-- **With a session.** -/
theorem authorizeSession_decides {now : Instant} (ha : readAuthorize q = .ok a)
    (hpending : R.validatePending C.toPlatform now a.request = .ok pending)
    (hlive : Live h session) (hselect : a.prompt ≠ some "select_account")
    (hlogin : a.prompt ≠ some "login") (hidle : Idle h) :
    Meets (I := surroundings) ok (MayDecide q)
      (authorizeSession p R a pending (a.allows R pending) session).run h (Decided C p R q) := by
  have hprompt := (readAuthorize_prompt ha).1
  have hselect' : one q "prompt" ≠ some "select_account" := hprompt ▸ hselect
  unfold authorizeSession
  refine meets_bindE.mpr (checkMaxAge_decides hlive hselect' hidle (fun h₁ hh₁ hidle hage => ?_)
    fun h' hidle => decided_error ha fun n hn => Or.inr ⟨rfl, hidle⟩)
  -- from here on the session is recent enough, if an age was given
  have hrecent : ∀ {h' : Record}, h₁ <+: h' → ∀ n, a.maxAge = some n → Recent h' n session :=
    fun hh n hn => (hage n hn).mono hh
  have herror : ∀ h' e, h₁ <+: h' → Decided C p R q h' (.error e) := fun h' e hh =>
    decided_error ha fun n hn => Or.inl ⟨session, hrecent hh n hn⟩
  dsimp only
  split
  · exact herror h₁ _ (List.prefix_refl h₁)
  rename_i hconsent
  have hmay : MayDecide q h₁ (.beginAuthenticated session pending a.downstream a.nonce
      (a.allows R pending)) :=
    { session := fun s e => by
        cases e
        exact ⟨hlive.mono hh₁, hselect'⟩
      begins := fun _ => ⟨not_refused ha hlogin, fun hg => by
        obtain ⟨n, hread, hn⟩ := (readAuthorize_prompt ha).2.2 hg
        exact ⟨n, session, hread, rfl, hage n hn⟩⟩ }
  refine meets_bindE.mpr (meets_storeOr hmay (fun n r handle _ => ?_)
    fun h' hh => herror h' _ hh)
  have hh₂ : h₁ <+: h₁ ++ [.called n (.beginAuthenticated session pending a.downstream a.nonce
      (a.allows R pending)), .replied n (some r)] := List.prefix_append ..
  have hlive₂ := hlive.mono (hh₁.trans hh₂)
  refine meets_bindE.mpr (approveAtOnce_decides hlive₂ hselect' (fun h' r hh hallow hcode => ?_)
    (fun h' hh hpage => ?_) fun h' e hh => herror h' e (hh₂.trans hh))
  · exact decided_code ha hpending hcode hallow (hlive₂.mono hh) hselect hlogin
      (hrecent (hh₂.trans hh))
  · have hnone : a.prompt ≠ some "none" := by
      rcases hpage with hallow | hnone
      · intro hnone
        exact hconsent ⟨hnone, by rw [hallow]; rfl⟩
      · exact hnone
    exact meets_liftE.mpr (consentPage_decides (hlive₂.mono hh) hselect' fun h'' r hh' hclient =>
      decided_page ha hclient hnone hlogin fun n hn =>
        ⟨session, hrecent (hh₂.trans (hh.trans hh')) n hn⟩)

/-- **Without a session.** -/
theorem authorizeGoogle_decides {headers : HeaderMap} (ha : readAuthorize q = .ok a)
    (hlogin : a.prompt ≠ some "login") (hidle : Idle h) :
    Meets (I := surroundings) ok (MayDecide q)
      (authorizeGoogle C p headers R a pending (a.allows R pending)).run h (Decided C p R q) := by
  unfold authorizeGoogle
  split
  · exact decided_error ha fun n hn => Or.inr ⟨rfl, hidle⟩
  rename_i hneither
  rw [not_or] at hneither
  have hnoAge : ∀ n, a.maxAge ≠ some n := fun n hn => hneither.2 (by rw [hn]; rfl)
  have herror : ∀ h' e, Decided C p R q h' (.error e) := fun h' e =>
    decided_error ha fun n hn => absurd hn (hnoAge n)
  split
  · exact herror h _
  have hmay : MayDecide q h (.beginGoogle pending a.downstream a.nonce (a.allows R pending)) :=
    { session := nofun
      begins := fun _ => ⟨not_refused ha hlogin, fun hg => by
        obtain ⟨n, _, hn⟩ := (readAuthorize_prompt ha).2.2 hg
        exact absurd hn (hnoAge n)⟩ }
  refine meets_bindE.mpr (meets_storeOr hmay (fun n r start _ => ?_) fun h' _ => herror h' _)
  have hstart : ∀ {h' : Record} {Q : Record → Except String Unit → Prop}, (∀ h' r, Q h' r) →
      Meets (I := surroundings) ok (MayDecide q) (startAtOnce (a.allows R pending) start).run h'
        Q := by
    intro h' Q hQ
    unfold startAtOnce
    split
    · exact meets_bindE.mpr (meets_storeOr (.plain rfl rfl) (fun n r x _ => hQ _ _)
        fun h' _ => hQ h' _)
    · exact hQ _ _
  refine meets_bindE.mpr (hstart fun h₂ r => ?_)
  cases r with
  | error e => exact herror h₂ e
  | ok _ =>
      refine meets_fromExcept.mpr ?_
      cases hpage : googlePage C p R a pending (a.allows R pending) start with
      | error e => exact herror h₂ e
      | ok r =>
          exact decided_page ha (googlePage_cookies hpage).1 hneither.1 hlogin fun n hn =>
            absurd hn (hnoAge n)

end Parts

/-! ## 5. Results -/

/-- **Prompt and age decisions.** Whatever it is told, `authorize_valid` makes only the calls it
    may make for the prompt and the age of its request, and answers as they say. -/
theorem prompt_decisions (C : HttpCrates) (p : Provider) (R : ClientRegistry)
    (q : List (String × String)) (headers : HeaderMap)
    {ok : (x : surroundings.Ask) → surroundings.Answer x → Prop} :
    Meets (I := surroundings) ok (MayDecide q) (authorizeValid C p q headers R).run []
      (Decided C p R q) := by
  have hread : ∀ {e : String} {h : Record}, readAuthorize q = .error e →
      Decided C p R q h (.error e) := fun he =>
    { none := fun _ _ => nofun, refused := fun _ => ⟨_, rfl⟩, code := fun _ => nofun
      stale := fun a n now pending ha => by
        rw [he] at ha
        cases ha }
  unfold authorizeValid
  refine meets_bindE.mpr (meets_fromExcept.mpr ?_)
  cases ha : readAuthorize q with
  | error e => exact hread ha
  | ok a =>
      refine meets_bindE.mpr (meets_liftE.mpr (meets_instantNow fun now => ?_))
      refine meets_bindE.mpr (meets_fromExcept.mpr ?_)
      have hidle : Idle ([] ++ [.answered (I := surroundings) Ask.instant now]) :=
        Idle.answered fun _ _ hcall => absurd hcall List.not_mem_nil
      cases hpending : R.validatePending C.toPlatform now a.request with
      | error e =>
          exact {
            none := fun _ _ => nofun, refused := fun _ => ⟨_, rfl⟩, code := fun _ => nofun
            stale := fun a' n now' pending ha' hn hnow hpending' => by
              obtain rfl : a = a' := Except.ok.inj (ha.symm.trans ha')
              rw [List.nil_append, List.mem_singleton] at hnow
              injection hnow with _ hsame
              rw [hsame, hpending] at hpending'
              cases hpending' }
      | ok pending =>
          refine meets_bindE.mpr (meets_liftE.mpr (sessionFrom_decides hidle
            (fun h' session _ hidle hlive => ?_) fun h' _ hidle => ?_))
          all_goals
            dsimp only
            split
            · exact decided_error ha fun n hn => Or.inr ⟨rfl, hidle⟩
          · rename_i hlogin
            by_cases hselect : a.prompt = some "select_account"
            · have hfilter : (some session).filter (fun _ => a.prompt != some "select_account") =
                  none := by simp [hselect]
              rw [hfilter]
              exact authorizeGoogle_decides ha hlogin hidle
            · have hfilter : (some session).filter (fun _ => a.prompt != some "select_account") =
                  some session := by simp [hselect]
              rw [hfilter]
              exact authorizeSession_decides ha hpending hlive hselect hlogin hidle
          · exact authorizeGoogle_decides ha ‹_› hidle

end Web

end Eri
