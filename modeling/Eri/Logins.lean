/-
  File:      Eri/Logins.lean
  Subject:   Who signs in (src/web.rs, callback; src/browser.rs, `claim_callback` and
             `complete_callback_bound`; src/google.rs, `exchange_code`), in every run of the
             application beside its Google adapter.

  * `googleAnswers`, `Together` -- the adapter as the environment of the application;
  * `completed_claim` -- a login completes the transaction that its request claimed;
  * `LoginOf` -- a login from the claim of its callback to its session;
  * **`logins_bound`** -- every session is one of these.
-/
import Eri.Adapter
import Eri.Provenance
import Eri.Sql.Environment

namespace Eri

open Sql

/-! ## 1. The adapter beside the application -/

namespace Google

namespace Adapter

variable {C : TokenCrates} {g : Web.GoogleAdapter} {A A' : Adapter}

/-- An exchange that is over is not the one that goes on. -/
theorem ended_set {l : List Exchange} {i : Nat} {x y x' : Exchange}
    {r : Except ExchangeError VerifiedGoogleIdentity} (hx : x ∈ l) (hphase : x.phase = .ended r)
    (hi : l[i]? = some y) (hy : y.phase ≠ .ended r) : x ∈ l.set i x' := by
  obtain ⟨j, hj⟩ := List.mem_iff_getElem?.mp hx
  have hne : i ≠ j := by
    rintro rfl
    obtain rfl := Option.some.inj (hi.symm.trans hj)
    exact hy hphase
  exact List.mem_of_getElem? ((List.getElem?_set_ne hne).trans hj)

/-- **What an exchange returned stays.** -/
theorem ended_kept (hs : Step C g A A') {x : Exchange}
    {r : Except ExchangeError VerifiedGoogleIdentity} (hx : x ∈ A.exchanges)
    (hphase : x.phase = .ended r) : x ∈ A'.exchanges := by
  cases hs with
  | tick | attempt => exact hx
  | refuse | send => exact List.mem_append_left _ hx
  | reject i y _ _ hi hy _ => exact ended_set hx hphase hi (by rw [hy]; exact nofun)
  | accept i y _ _ _ hi hy _ => exact ended_set hx hphase hi (by rw [hy]; exact nofun)
  | serve i y _ _ _ _ _ _ hi hy _ _ _ => exact ended_set hx hphase hi (by rw [hy]; exact nofun)
  | throttle i y _ _ _ hi hy _ _ _ => exact ended_set hx hphase hi (by rw [hy]; exact nofun)
  | exhausted i y _ _ _ hi hy _ _ _ _ => exact ended_set hx hphase hi (by rw [hy]; exact nofun)
  | succeed i y _ _ _ _ _ _ _ _ _ hi hy _ _ _ =>
      exact ended_set hx hphase hi (by rw [hy]; exact nofun)
  | miss i y _ _ _ _ _ _ hi hy _ _ _ => exact ended_set hx hphase hi (by rw [hy]; exact nofun)
  | fail i y _ _ _ _ _ hi hy _ _ => exact ended_set hx hphase hi (by rw [hy]; exact nofun)
  | dropAsking i y hi hy => exact ended_set hx hphase hi (by rw [hy]; exact nofun)
  | dropWaiting i y _ _ _ hi hy _ => exact ended_set hx hphase hi (by rw [hy]; exact nofun)
  | dropFetching i y _ _ _ hi hy _ => exact ended_set hx hphase hi (by rw [hy]; exact nofun)

/-- What the adapter answers: what an exchange with the arguments returned. -/
def Gives (A : Adapter) : (q : Web.Ask) → q.Answer → Prop
  | .exchange code verifier nonce, a => ∃ x ∈ A.exchanges, x.code = ⟨code, verifier, nonce⟩ ∧
      ∃ r, x.phase = .ended r ∧ a = r.toOption
  | .resolve _, _ | .instant, _ | .now, _ => True

theorem gives_kept (hs : Step C g A A') (q : Web.Ask) (a : q.Answer) (h : A.Gives q a) :
    A'.Gives q a := by
  cases q with
  | exchange code verifier nonce =>
      obtain ⟨x, hx, hcode, r, hphase, ha⟩ := h
      exact ⟨x, ended_kept hs hx hphase, hcode, r, hphase, ha⟩
  | _ => trivial

/-- The steps of an adapter as those of an environment. -/
def googleAnswers (C : TokenCrates) (g : Web.GoogleAdapter) :
    Sql.Environment Web.surroundings where
  State := Adapter
  start A := ∃ now, A = .new now
  step := Step C g
  gives := Gives
  keeps q a hs h := gives_kept hs q a h

theorem adapter_reachable (h : (googleAnswers C g).Reachable A) : Reachable C g A := by
  refine h.invariant (fun s hs => ?_) fun s s' hs hstep => hs.step hstep
  obtain ⟨now, rfl⟩ := hs
  exact .new now

theorem reachable_adapter (h : Reachable C g A) : (googleAnswers C g).Reachable A := by
  induction h with
  | new now => exact .start ⟨now, rfl⟩
  | step _ hs ih => exact .step ih hs

end Adapter

end Google

namespace Web

open Google (TokenCrates Adapter)
open Google.Adapter (googleAnswers)

/-- **The runs of an application beside its adapter.** -/
abbrev Together (C : HttpCrates) {K : KeyCrates} (keys : SigningKeys K) (T : TokenCrates)
    (g : GoogleAdapter) (W : Site) (A : Adapter) : Prop :=
  (application C keys).Beside (googleAnswers T g) Sql.Db.empty W A

variable {C : HttpCrates} {K : KeyCrates} {keys : SigningKeys K} {T : TokenCrates}
  {g : GoogleAdapter} {W : Site} {A : Adapter} {p : Provider}

/-! ## 2. Claims -/

/-- The claim, the verifier and the nonce of a call that claimed a callback. -/
theorem claimed_entry {P : Platform} {M : Machine schema Request Reply} {e : Entry}
    {state binding claim verifier nonce : String} (h : Eri.Reachable P M) (he : e ∈ M.log)
    (hcall : e.call.call = .claimCallback state binding)
    (hreply : e.reply = .claimed (.ok (claim, verifier, nonce))) :
    claim = e.call.tape.secret 0 ∧ ∃ row ∈ e.before.rows .browserAuthorizations,
      BrowserRow.claimable P state binding row = true ∧
      BrowserRow.upstreamVerifier row = some verifier ∧
      BrowserRow.upstreamNonce row = some nonce := by
  obtain ⟨_, hrun⟩ := reachable_entry (lawful P) h he
  generalize e.call = c at hcall hrun ⊢
  obtain ⟨call, t⟩ := c
  cases hcall
  obtain ⟨x, hx, hof⟩ := run_of_map hrun
  rw [hreply] at hof
  rcases claimCallback_run hx with
    ⟨rfl, _⟩ | ⟨row, hrow, ⟨rfl, _⟩ | ⟨_, rfl, _⟩ | ⟨v, n, hverifier, hnonce, rfl, _⟩⟩
  · cases hof
  · cases hof
  · cases hof
  · cases hof
    exact ⟨rfl, row, List.mem_of_find?_eq_some hrow, List.find?_some hrow, hverifier, hnonce⟩

/-- **A claim is good for the transaction it was drawn for**: a transaction that a later call
    finds by the claim is the one that the claim was drawn for. -/
theorem completed_claim {P : Platform} {M : Machine schema Request Reply} {e₁ e₂ : Entry}
    {state binding claim : String} {row₁ row₂ : BrowserRow} (h : Eri.Reachable P M)
    (he₁ : e₁ ∈ M.log) (hcall : e₁.call.call = .claimCallback state binding)
    (hclaim : claim = e₁.call.tape.secret 0)
    (hrow₁ : row₁ ∈ e₁.before.rows .browserAuthorizations)
    (hclaimable : row₁.claimable P state binding = true) (he₂ : e₂ ∈ M.log)
    (hrow₂ : row₂ ∈ e₂.before.rows .browserAuthorizations)
    (hclaimed : row₂.claimedBy P claim = true) : row₂.id = row₁.id := by
  have hhash : row₂.claimHash = some (secretHash P claim) := by
    have hboth : (row₂.claimHash = some (secretHash P claim) && row₂.stage = .callbackClaimed) =
      true := hclaimed
    rw [Bool.and_eq_true] at hboth
    exact of_decide_eq_true hboth.1
  obtain ⟨e, he, hdrawn⟩ := entry_claimed h he₂ row₂ hrow₂
  obtain ⟨hsame, state', binding', hcall', x, hx, hid, hclaimable'⟩ := hdrawn _ hhash
  -- the secret was drawn once
  obtain rfl : e = e₁ := entry_of_hash h he he₁ (i := 0) (j := 0) (by rw [← hsame, hclaim]; rfl)
  cases hcall.symm.trans hcall'
  rw [← hid, claimable_same (reachable_entry (lawful P) h he₁).1.inv hx hrow₁ hclaimable'
    hclaimable]

/-! ## 3. Logins -/

/-- **A login, from the claim of its callback to its session.** One request did it all: its
    browser had the state and the cookie of a transaction, which were good once; Google answered
    its code, to the verifier and the nonce of this transaction, with an ID token that verified;
    and the session was started for this transaction, for the user whom the token is about. -/
inductive LoginOf (C : HttpCrates) (T : TokenCrates) (g : GoogleAdapter) (W : Site) (A : Adapter)
    (s : SessionRow) : Prop where
  | google {w : Visit} {p : Provider} {req : HttpRequest} {e₁ e₂ : Entry}
      {state name binding claim code verifier nonce : String} {row done : BrowserRow}
      {x : Google.Exchange} {identity : VerifiedGoogleIdentity} {lifetime : Duration}
      {registry : Option ClientRegistry} (hw : w ∈ W.workers) (htask : w.task = (p, .browser req))
      (he₁ : e₁ ∈ W.store.log) (hcalled₁ : .called e₁.thread e₁.call.call ∈ w.record)
      (hclaims : e₁.call.call = .claimCallback state binding)
      (hcookie : (name, binding) ∈ transactionCookies req.headers p.secure)
      (hrow : row ∈ e₁.before.rows .browserAuthorizations)
      (hclaimable : row.claimable C.toPlatform state binding = true)
      (hverifier : row.upstreamVerifier = some verifier) (hnonce : row.upstreamNonce = some nonce)
      (hx : x ∈ A.exchanges) (hcode : x.code = ⟨code, verifier, nonce⟩)
      (hverified : Google.Adapter.Verified T g A.keyring.trace x identity)
      (he₂ : e₂ ∈ W.store.log) (hcalled₂ : .called e₂.thread e₂.call.call ∈ w.record)
      (hcompletes : e₂.call.call = .completeCallback claim identity lifetime registry)
      (hdone : done ∈ e₂.before.rows .browserAuthorizations) (hsame : done.id = row.id)
      (hclaimed : done.claimedBy C.toPlatform claim = true)
      (huser : findIdentity W.store.db googleIssuer identity.subject = some s.userId)
      (htime : s.upstreamAuthTime = identity.upstreamAuthTime) : LoginOf C T g W A s

/-- **Logins are bound.** In every run of the application beside its adapter, every session is of
    a login whose transaction, browser, code, nonce, ID token and user belong together. -/
theorem logins_bound (h : Together C keys T g W A) :
    ∀ s ∈ W.store.db.rows .providerSessions, LoginOf C T g W A s := by
  intro s hs
  have hW : Running C keys W := h.reachable
  have hA : Google.Adapter.Reachable T g A :=
    Google.Adapter.adapter_reachable h.environment_reachable
  obtain ⟨e₂, he₂, hstarted⟩ := started_origin hW.reachable s hs
  cases hstarted with
  | direct hnobody =>
      obtain ⟨w, hw, p, endpoint, past, htask, _, hpast, hmay, harea⟩ :=
        hW.owner_of he₂ (by rw [hnobody]; exact nofun)
      cases endpoint with
      | preflight headers => exact hmay.elim
      | _ => cases hnobody.symm.trans harea
  | @login claim identity lifetime registry done hcompletes hdone hclaimed huser htime =>
      obtain ⟨w, hw, p, endpoint, past, htask, hcalled₂, hpast, hmay, harea⟩ :=
        hW.owner_of he₂ (by rw [hcompletes]; exact nofun)
      rw [hcompletes] at hmay harea
      cases endpoint with
      | browser req =>
          have hvouched : Vouched p req.headers w.record claim identity := Vouched.mono hmay.2 hpast
          obtain ⟨code, verifier, nonce, ⟨state, name, binding, n, hcookie, hcalled, hreplied⟩,
            hanswered⟩ := hvouched
          -- the claim of the same request
          obtain ⟨e₁, he₁, rfl, hcall, hreply⟩ :=
            hW.obeying.entry (lawful C.toPlatform) hW hw hcalled hreplied
          have hcall : e₁.call.call = .claimCallback state binding := hcall
          obtain ⟨hclaim, row, hrow, hclaimable, hverifier, hnonce⟩ :=
            claimed_entry hW.reachable he₁ hcall hreply
          -- the answer of the adapter
          obtain ⟨x, hx, hcode, r, hphase, hr⟩ : A.Gives (.exchange code verifier nonce)
            (some identity) := h.given _ _ ⟨w, hw, hanswered⟩
          have hok : r = .ok identity := by
            cases r with
            | error e => cases hr
            | ok a => exact congrArg Except.ok (Option.some.inj hr).symm
          have hverified : Google.Adapter.Verified T g A.keyring.trace x identity := by
            cases Google.Adapter.stories hA x hx with
            | returned hended hverified =>
                cases (hok ▸ hphase).symm.trans hended
                exact hverified
            | asking he | keyed he | failed he | dropped he =>
                cases (hok ▸ hphase).symm.trans he
          exact .google hw htask he₁ (hcall ▸ hcalled) hcall hcookie hrow hclaimable hverifier
            hnonce hx hcode hverified he₂ hcalled₂ hcompletes hdone
            (completed_claim hW.reachable he₁ hcall hclaim hrow hclaimable he₂ hdone hclaimed)
            hclaimed (findIdentity_later (reachable_integrity hW.reachable)
              (entry_progress_after hW.reachable he₂) huser) htime
      | _ => cases harea

namespace Sample

/-- What the adapter has answered in the run by hand. -/
theorem site_answered {code verifier nonce : String} {a : Option VerifiedGoogleIdentity}
    (h : site.Answered (.exchange code verifier nonce) a) :
    (code, verifier, nonce, a) = ("google", secret 3, secret 2, some Eri.Sample.identity) := by
  obtain ⟨_, _, _, _, hexchanged⟩ := site_run
  obtain ⟨w, hw, ha⟩ := h
  have hmem : (code, verifier, nonce, a) ∈ site.workers.flatMap fun w => exchangedIn w.record :=
    List.mem_flatMap.mpr ⟨w, hw, List.mem_filterMap.mpr ⟨_, ha, rfl⟩⟩
  rw [hexchanged] at hmem
  exact List.mem_singleton.mp hmem

/-- **The run by hand is one beside an adapter.** -/
theorem site_together (g : GoogleAdapter) : ∃ T A, Together siteCrates siteKeys T g site A := by
  obtain ⟨A, hA, x, hx, hcode, hphase⟩ := Google.Adapter.Sample.exchanged (g := g)
    ⟨"google", secret 3, secret 2⟩ (by decide) (by decide) (by decide)
  refine ⟨_, A, Sql.Service.beside_of_given site_runs (Google.Adapter.reachable_adapter hA) ?_⟩
  intro q a ha
  cases q with
  | exchange code verifier nonce =>
      cases site_answered ha
      exact ⟨x, hx, hcode, _, hphase, rfl⟩
  | _ => trivial

end Sample

/-- The session of a login of a run by hand. -/
theorem logins_bound_site : ∃ T A, ∃ s ∈ Sample.site.store.db.rows .providerSessions,
    LoginOf Sample.siteCrates T Sample.localProvider.google Sample.site A s := by
  obtain ⟨T, A, h⟩ := Sample.site_together Sample.localProvider.google
  obtain ⟨_, _, _, hsessions, _⟩ := Sample.site_run
  obtain ⟨s, l, hs, _, _⟩ := List.map_eq_cons_iff.mp hsessions
  exact ⟨T, A, s, hs ▸ List.mem_cons_self, logins_bound h s (hs ▸ List.mem_cons_self)⟩

end Web

end Eri
