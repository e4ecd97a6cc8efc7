/-
  File:      Eri/Application.lean
  Subject:   The whole application (src/web.rs, router): every endpoint that uses the stores, any
             number of requests at once.

  Nobody else uses the database, so no call comes from outside. The browser flow is a part of
  the application, and everything that holds of its runs holds of the application's.

  * `Endpoint`, `Answer`, `respond` -- the handlers by request;
  * `application`, `Running` -- the service and its runs;
  * `respond_meets`, `obeying` -- what every worker keeps to;
  * `browsing`, **`Running.online`** -- the browser flow as a part;
  * **`application_browses`** -- runs of the application are runs of the browser flow.
-/
import Eri.ApiEndpoints
import Eri.Flow
import Eri.Returns
import Eri.Sql.Parts

namespace Eri

/-- The part of the server that makes a call; sessions are looked up by several, and some
    operations of the stores are nobody's. -/
inductive Area where
  | browser
  | token
  | userinfo
  | revoke
  | logout
  | shared
  | nobody

def Call.area : Call → Area
  | .transactionClientId _ | .callbackClientId _ | .beginGoogle .. | .startGoogle ..
  | .cancelGoogle .. | .beginAuthenticated .. | .sessionUpstreamAuthTime _ | .claimCallback ..
  | .failCallback _ | .denyCallback .. | .completeCallback .. | .approve ..
  | .approvePreAuthorized .. | .deny .. | .consentView .. => .browser
  | .exchangeCodeRequest .. | .rotateRefreshRequest .. => .token
  | .userProfile _ => .userinfo
  | .revokeRefresh .. => .revoke
  | .beginLogout .. | .beginLocal .. | .finish .. | .finishHint .. => .logout
  | .findProviderSession _ => .shared
  | _ => .nobody

namespace Web

open Sql (Process)
open Sql.Process

/-! ## 1. Endpoints -/

/-- The requests that use the stores, with what their handlers draw, and preflights. -/
inductive Endpoint where
  | browser (req : HttpRequest)
  | token (now : Nat) (jti : Uuid) (headers : HeaderMap) (body : List UInt8)
  | userinfo (now later : Nat) (headers : HeaderMap) (body : List UInt8)
  | revoke (headers : HeaderMap) (body : List UInt8)
  | logout (now : Nat) (req : LogoutHttp)
  | preflight (headers : HeaderMap)

def Endpoint.area : Endpoint → Area
  | .browser _ => .browser
  | .token .. => .token
  | .userinfo .. => .userinfo
  | .revoke .. => .revoke
  | .logout .. => .logout
  | .preflight _ => .nobody

inductive Answer where
  | page (r : Response)
  | token (a : TokenAnswer)
  | api (a : ApiAnswer)
  | logout (a : LogoutAnswer)

section Respond

variable (C : HttpCrates) {K : KeyCrates} (keys : SigningKeys K) (p : Provider)

def respond : Endpoint → Handler Answer
  | .browser req => .page <$> handle C p req
  | .token now jti headers body => .token <$> token C keys p now jti headers body
  | .userinfo now later headers body => .api <$> userinfoHandler C keys p now later headers body
  | .revoke headers body => .api <$> revoke C p headers body
  | .logout now req => .logout <$> logout C keys p now req
  | .preflight headers => pure (.api (apiOptions p headers))

/-- The calls an endpoint may make. -/
def Endpoint.MayCall : Endpoint → Record → Call → Prop
  | .browser req, h, x => Web.MayCall C req h x ∧ FlowCall p req.headers h x
  | .token _ _ headers body, h, x => TokenCall C p headers body h x
  | .userinfo now later headers body, h, x => UserinfoCall C keys p now later headers body h x
  | .revoke headers body, h, x => RevokeCall C p headers body h x
  | .logout now req, h, x => LogoutCall C keys p now req h x
  | .preflight _, _, _ => False

/-- The origin of a token answer is that of a request of a client that declares it. -/
def TokenOrigin (headers : HeaderMap) (body : List UInt8) (a : TokenAnswer) : Prop :=
  ∀ o, a.allowOrigin = some o → origin headers = some o ∧
    ∃ q params, readToken C p headers body = .ok (q, params)

/-- What an endpoint may answer. -/
def Endpoint.Ends : Endpoint → Record → Answer → Prop
  | .browser req, h, .page r => Web.Ends C p req h r
  | .token now jti headers body, h, .token a =>
      TokenEnds keys p now jti h a ∧ TokenOrigin C p headers body a
  | .userinfo now later headers body, h, .api a => a = bearerError ∨ ∃ c n profile,
      userinfoClaims C keys p now later headers body = some c ∧
      h = [.called n (.userProfile c.sub), .replied n (some (.profile (some profile)))] ∧
      a = ⟨200, disclosed K c.sub (splitScopes c.scope) profile, cors (origin headers)⟩
  | .revoke headers body, h, .api a =>
      (∃ e, readRevoke C p headers body = .error e ∧ h = [] ∧ a = tokenError e) ∨
      ∃ client value n r, readRevoke C p headers body = .ok (client, value) ∧
        h = [.called n (.revokeRefresh value client), .replied n r] ∧
        ((r = some (.revoked (.ok ())) ∧ a = ⟨200, [], cors (origin headers)⟩) ∨
          (r ≠ some (.revoked (.ok ())) ∧
            a = ⟨503, [("error", .str "server_error")], cors (origin headers)⟩))
  | .logout _ _, h, .logout a => LogoutEnds p h a
  | .preflight headers, _, .api a => a = apiOptions p headers
  | _, _, _ => False

end Respond

section Meets

variable {C : HttpCrates} {K : KeyCrates} {keys : SigningKeys K} {p : Provider}
  {ok : (q : surroundings.Ask) → surroundings.Answer q → Prop}

theorem token_origin {now : Nat} {jti : Uuid} {headers : HeaderMap} {body : List UInt8}
    (h : Record) : Meets (I := surroundings) ok (fun _ _ => True)
      (token C keys p now jti headers body) h fun _ a => TokenOrigin C p headers body a := by
  unfold token
  cases hread : readToken C p headers body with
  | error e => exact fun o ho => nomatch ho
  | ok request =>
      obtain ⟨q, a⟩ := request
      refine meets_bind.mpr ((meets_anything _ h).mono fun h' r _ _ => ?_)
      cases r with
      | error e => exact fun o ho => nomatch ho
      | ok result => exact fun o ho => ⟨ho, q, a, hread⟩

/-- **Every endpoint keeps to its calls and its answers.** -/
theorem respond_meets (endpoint : Endpoint) :
    Meets (I := surroundings) ok (endpoint.MayCall C keys p) (respond C keys p endpoint) []
      (endpoint.Ends C keys p) := by
  cases endpoint with
  | browser req =>
      exact meets_map.mpr (((handle_meets C p req).and (handle_flows req)).mono
        fun _ _ _ hQ => hQ.1)
  | token now jti headers body =>
      exact meets_map.mpr (((token_meets []).and (token_origin [])).allow fun _ _ hmay => hmay.1)
  | userinfo now later headers body => exact meets_map.mpr userinfoHandler_meets
  | revoke headers body => exact meets_map.mpr revoke_meets
  | logout now req => exact meets_map.mpr (logout_meets req)
  | preflight headers => rfl

theorem FlowCall.area {headers : HeaderMap} {h : Record} {call : Call}
    (hc : FlowCall p headers h call) : call.area = .browser ∨ call.area = .shared := by
  cases call <;> first | exact Or.inl rfl | exact Or.inr rfl | cases hc

theorem grantCall_area {q : List (String × String)} {a : TokenParams} {R : ClientRegistry}
    {call : Call} {initial : Bool} (hc : grantCall q a R = .ok (call, initial)) :
    call.area = .token := by
  have hstated := grantCall_ok hc
  cases call <;> first | rfl | cases hstated

theorem LogoutRequest.begins_area (r : LogoutRequest) (s : ProviderSession) :
    (r.begins p s).area = .logout := by
  unfold LogoutRequest.begins
  split <;> rfl

/-- **An endpoint makes the calls of its own part.** -/
theorem Endpoint.MayCall.area {endpoint : Endpoint} {h : Record} {call : Call}
    (hmay : endpoint.MayCall C keys p h call) :
    call.area = endpoint.area ∨ call.area = .shared := by
  cases endpoint with
  | browser req => exact hmay.2.area
  | token now jti headers body =>
      obtain ⟨q, a, R, initial, _, _, hcall⟩ := hmay
      exact Or.inl (grantCall_area hcall)
  | userinfo now later headers body =>
      obtain ⟨c, _, rfl⟩ := hmay
      exact Or.inl rfl
  | revoke headers body =>
      obtain ⟨client, value, _, rfl⟩ := hmay
      exact Or.inl rfl
  | logout now req =>
      cases hmay with
      | session hcookie => exact Or.inr rfl
      | begins hr hs => exact Or.inl (LogoutRequest.begins_area _ _)
      | hinted | confirmed => exact Or.inl rfl
  | preflight headers => exact hmay.elim

end Meets

/-! ## 2. The service -/

section Service

variable (C : HttpCrates) {K : KeyCrates} (keys : SigningKeys K)

/-- **The application over the stores.** A request comes with the provider that serves it. -/
def application : Sql.Service schema surroundings Request (Provider × Endpoint) Answer where
  prog := program C.toPlatform
  contract := contract C.toPlatform
  asks r := r.call
  possible r := ∀ k, IsSecret (r.tape.secret k)
  body task := respond C keys task.1 task.2
  answers task := task.1.Answers C.toPlatform
  outside _ := False

/-- The stores of an application and the requests it was sent. -/
abbrev Site : Type 1 := Sql.Server schema surroundings Request (Provider × Endpoint) Answer

/-- **The runs of any number of requests** from the migrated, empty database. -/
abbrev Running (W : Site) : Prop := (application C keys).Reachable Sql.Db.empty W

/-- What the workers of a run keep to. -/
abbrev Obeying (W : Site) : Prop :=
  Sql.Sound (application C keys) (fun t => t.2.MayCall C keys t.1) (fun t => t.2.Ends C keys t.1) W

end Service

section Runs

variable {C : HttpCrates} {K : KeyCrates} {keys : SigningKeys K} {W : Site}

theorem Running.reachable (h : Running C keys W) : Eri.Reachable C.toPlatform W.store := h.store

theorem Running.obeying (h : Running C keys W) : Obeying C keys W :=
  Sql.sound_reachable (fun t => respond_meets t.2) h

/-- A request under way. -/
abbrev Visit : Type := Sql.Worker surroundings (Provider × Endpoint) Answer

/-- **Every call that took effect is one of a worker**, which might make it. -/
theorem Running.owner (h : Running C keys W) {e : Entry} (he : e ∈ W.store.log) :
    ∃ w ∈ W.workers, .called e.thread e.call.call ∈ w.record ∧
      ∃ past, past ++ [.called e.thread e.call.call] <+: w.record ∧
        w.task.2.MayCall C keys w.task.1 past e.call.call := by
  rcases h.obeying.owner (lawful C.toPlatform) h he with hout | ⟨w, hw, hcalled⟩
  · exact hout.elim
  · exact ⟨w, hw, hcalled, h.obeying.may_called hw hcalled⟩

/-- **The calls of a part are those of its endpoint.** -/
theorem Running.owner_of (h : Running C keys W) {e : Entry} (he : e ∈ W.store.log)
    (hshared : e.call.call.area ≠ .shared) : ∃ w ∈ W.workers, ∃ p endpoint past,
      w.task = (p, endpoint) ∧ .called e.thread e.call.call ∈ w.record ∧ past <+: w.record ∧
      endpoint.MayCall C keys p past e.call.call ∧ e.call.call.area = endpoint.area := by
  obtain ⟨w, hw, hcalled, past, hpast, hmay⟩ := h.owner he
  exact ⟨w, hw, w.task.1, w.task.2, past, rfl, hcalled, (List.prefix_append ..).trans hpast, hmay,
    hmay.area.resolve_right hshared⟩

/-! ## 3. The browser flow -/

/-- The answer of the browser flow. -/
def Answer.asPage : Answer → Response
  | .page r => r
  | _ => localError ""

def Endpoint.asBrowser : Endpoint → Option HttpRequest
  | .browser req => some req
  | _ => none

/-- The calls of the other endpoints are those of other handlers. -/
theorem Endpoint.MayCall.elsewhere {p : Provider} {endpoint : Endpoint} {h : Record} {call : Call}
    (hmay : endpoint.MayCall C keys p h call) (hother : endpoint.asBrowser = none) :
    Web.elsewhere call = true := by
  have harea := hmay.area
  cases endpoint with
  | browser req => cases hother
  | preflight headers => exact hmay.elim
  | _ => cases call <;> first | rfl | rcases harea with harea | harea <;> cases harea

/-- **The browser flow is a part of the application.** -/
def browsing (C : HttpCrates) {K : KeyCrates} (keys : SigningKeys K) :
    Sql.Part (application C keys) (service C) where
  shown t := t.2.asBrowser.map fun req => (t.1, req)
  read := Answer.asPage
  prog := rfl
  contract := rfl
  asks := rfl
  possible _ h := h
  outside _ h := h.elim
  body t l ht := by
    obtain ⟨p, endpoint⟩ := t
    cases endpoint with
    | browser req =>
        obtain rfl := Option.some.inj ht
        exact (map_map_cancel (fun _ => rfl) _).symm
    | _ => cases ht
  answers t l ht := by
    obtain ⟨p, endpoint⟩ := t
    cases endpoint with
    | browser req =>
        obtain rfl := Option.some.inj ht
        exact fun q a ha => ha
    | _ => cases ht
  others t ht := by
    have hother : t.2.asBrowser = none := Option.map_eq_none_iff.mp ht
    refine ((respond_meets t.2).allow fun h q hq => ?_).mono fun _ _ _ _ => trivial
    rintro c rfl
    exact hq.elsewhere hother

/-- **A run of the application is a run of the browser flow.** -/
theorem Running.online (h : Running C keys W) : Online C ((browsing C keys).see W) :=
  (browsing C keys).reachable h

/-- **Runs of the application are runs of the browser flow.** What the flow does not see is only
    where its other workers stand: it has the same stores, the same calls, and a worker of its
    own, with the same record and answer, for each of its requests. -/
theorem application_browses (h : Running C keys W) :
    Online C ((browsing C keys).see W) ∧ ((browsing C keys).see W).store = W.store ∧
    (∀ e ∈ W.store.log, ∃ w ∈ W.workers, .called e.thread e.call.call ∈ w.record) ∧
    (∀ i p req record r, W.At i (p, .browser req) record (.ready (.done (.page r))) →
      ∃ j, ((browsing C keys).see W).At j (p, req) record (.ready (.done r))) ∧
    ∀ u ∈ ((browsing C keys).see W).workers, ∃ w ∈ W.workers,
      w.task = (u.task.1, .browser u.task.2) ∧ w.record = u.record := by
  refine ⟨h.online, rfl, fun e he => ?_, fun i p req record r hi => ?_, fun u hu => ?_⟩
  · obtain ⟨w, hw, hcalled, _⟩ := h.owner he
    exact ⟨w, hw, hcalled⟩
  · exact Sql.Part.at_see (R := browsing C keys) rfl hi
  · obtain ⟨w, hw, hshown⟩ := Sql.Part.worker_of hu
    obtain ⟨⟨p, endpoint⟩, record, progress⟩ := w
    cases endpoint with
    | browser req =>
        obtain rfl := Option.some.inj hshown
        exact ⟨_, hw, rfl, rfl⟩
    | _ => cases hshown

end Runs

/-! ## 4. An application by hand -/

namespace Sample

/-- The SHA-256 of the secrets that the run uses, and of its verifier; distinct numbers for the
    secrets it only draws. -/
def siteHash (n : Nat) : Nat :=
  match n with
  | 28 => 0xce64977f37ab2ed9ea8f5079d109858673c54f7f9439e81bb00fda66f4deed1e
  | 32 => 0xad804b1f373afdb55670c6cdff4b54f961560e760215cda283b4c821680884c9
  | 44 => 0x5cb0fe8c81e72905fdfbe2deadd05f1cebe9f3db615bf5d17cae7b910aca17ff
  | 63 => 0x938a7bfca249384219341b8552748211f8631c106d51a9922b6b3fd52e97488c
  | n => hashes.getD n n

/-- The crates, on the secrets and the URLs of a run of the application. -/
def siteCrates : HttpCrates := formCrates
  { serverCrates.toPlatform with
    digest := fun input =>
      let n := ((secretIndex input).map siteHash).getD 0
      Vector.ofFn fun i : Fin 32 => UInt8.ofNat (n >>> (8 * (31 - i.val))) }

/-- Keys that sign one token. -/
def siteKeyCrates : KeyCrates where
  PrivateKey := Unit
  toPublicKey _ := ⟨0, 0⟩
  pkcs8Private _ := none
  pkcs1Private _ := none
  publicKeyPem _ := none
  pkcs1Public _ := none
  encodingKey _ := none
  decodingKey _ := none
  encode _ _ _ := some "token"
  decodeHeader _ := none
  firstSegment _ := none
  decode _ _ _ _ := none
  uuidText u := u.toText
  uuidOf _ := none

def siteKeys : SigningKeys siteKeyCrates := ⟨"key", (), ∅, ⟨[]⟩⟩

def siteQuery : String :=
  "client_id=app&redirect_uri=https://app.example/callback&response_type=code" ++
    "&code_challenge_method=S256&code_challenge=k4p7_KJJOEIZNBuFUnSCEfhjHBBtUamSK2s_1S6XSIw" ++
    "&scope=openid+offline_access&resource=https://api.example&state=a%20b"

/-- The cookie of the session that the login of the run makes. -/
def siteSession : HeaderMap := [("cookie", utf8 ("eri_dev_session=" ++ secret 16))]

/-- A script of the client runs at an origin of its own. -/
def siteOrigin : HeaderMap := [("origin", utf8 "https://spa.example")]

def siteProvider : Provider :=
  { localProvider with
    registry := ⟨[{ Eri.Sample.client with browserOrigins := {"https://spa.example"} }], none, none,
      List.nodup_singleton _⟩ }

/-- A user signs in; the client exchanges its code, rotates its token and revokes the new one;
    the user logs out. -/
def siteRequests : List Endpoint :=
  [.browser (.authorizeGet (some siteQuery) []),
   .browser (.callback (some ("code=google&state=" ++ secret 0))
     [("cookie", utf8 (txCookie 0 false ++ "=" ++ secret 1))]),
   .token 0 0 siteOrigin (utf8 ("grant_type=authorization_code&client_id=app" ++
     "&redirect_uri=https://app.example/callback&code=" ++ secret 24 ++ "&code_verifier=" ++
     secret 63)),
   .token 0 0 [] (utf8 ("grant_type=refresh_token&client_id=app&refresh_token=" ++ secret 28)),
   .revoke [] (utf8 ("client_id=app&token=" ++ secret 32)),
   .logout 0 (.get none siteSession),
   .logout 0 (.post none
     (siteSession ++ [("content-type", utf8 "application/x-www-form-urlencoded")])
     (utf8 ("challenge=" ++ Uuid.toText 22 ++ "&csrf=" ++ secret 44)))]

/-- Static clients resolve, and Google vouches for everyone. -/
def siteAnswer : (q : Ask) → q.Answer
  | .resolve clientId => siteProvider.resolveClient siteCrates.toPlatform clientId
      (.error .fetchFailed) 0
  | .instant => (0 : Int)
  | .now => (0 : Int)
  | .exchange _ _ _ => some Eri.Sample.identity

def siteTasks : List ((Provider × Endpoint) × ((q : Ask) → q.Answer)) :=
  siteRequests.map fun r => ((siteProvider, r), siteAnswer)

/-- The application after them. -/
def site : Site := (application siteCrates siteKeys).serial nthCall Sql.Db.empty siteTasks

/-- What an answer is, or where it sends the browser, and who may read it. -/
def brief : Answer → Option (String × Option String)
  | .page r => r.page.client.map fun e => (e.1, none)
  | .token a => a.result.toOption.map fun _ => ("token", a.allowOrigin)
  | .api a => if a.status = 200 then some ("revoked", a.allowOrigin) else none
  | .logout (.page r) => r.page.client.map fun e => (e.1, none)
  | .logout (.form _) => some ("form", none)

/-- Bytes spell a number. -/
theorem bytes_mod {n m : Nat} : ∀ k : Nat,
    (∀ j < k, UInt8.ofNat (n >>> (8 * j)) = UInt8.ofNat (m >>> (8 * j))) →
      n % 256 ^ k = m % 256 ^ k
  | 0, _ => by rw [Nat.pow_zero, Nat.mod_one, Nat.mod_one]
  | k + 1, h => by
      have hbyte : n / 256 ^ k % 256 = m / 256 ^ k % 256 := by
        have hshift : ∀ x : Nat, (UInt8.ofNat (x >>> (8 * k))).toNat = x / 256 ^ k % 256 := by
          intro x
          rw [UInt8.toNat_ofNat', Nat.shiftRight_eq_div_pow, Nat.pow_mul]
        rw [← hshift, ← hshift, h k (Nat.lt_succ_self k)]
      rw [Nat.mod_pow_succ, Nat.mod_pow_succ, hbyte,
        bytes_mod k fun j hj => h j (Nat.lt_succ_of_lt hj)]

theorem siteHash_facts : ((List.range 56).map siteHash).Nodup ∧
    ∀ n ∈ List.range 56, siteHash n < 256 ^ 32 ∧ secretIndex (utf8 (secret n)) = some n := by
  decide +kernel

/-- The secrets of the run have different hashes. -/
theorem siteHash_inj {n m : Nat} (hn : n < 56) (hm : m < 56)
    (h : secretHash siteCrates.toPlatform (secret n) =
      secretHash siteCrates.toPlatform (secret m)) : n = m := by
  obtain ⟨hnodup, hfacts⟩ := siteHash_facts
  have hfacts : ∀ k < 56, siteHash k < 256 ^ 32 ∧ secretIndex (utf8 (secret k)) = some k :=
    fun k hk => hfacts k (List.mem_range.mpr hk)
  have hhash : ∀ k < 56, secretHash siteCrates.toPlatform (secret k) =
      Vector.ofFn fun i : Fin 32 => UInt8.ofNat (siteHash k >>> (8 * (31 - i.val))) := by
    intro k hk
    show (Vector.ofFn fun i : Fin 32 => UInt8.ofNat
      ((((secretIndex (utf8 (secret k))).map siteHash).getD 0) >>> (8 * (31 - i.val)))) = _
    rw [(hfacts k hk).2]
    rfl
  rw [hhash n hn, hhash m hm] at h
  have hmod : siteHash n % 256 ^ 32 = siteHash m % 256 ^ 32 := by
    refine bytes_mod 32 fun j hj => ?_
    have hbyte := congrArg (fun v : Vector UInt8 32 => v[31 - j]) h
    simp only [Vector.getElem_ofFn] at hbyte
    rwa [show 31 - (31 - j) = j by omega] at hbyte
  rw [Nat.mod_eq_of_lt (hfacts n hn).1, Nat.mod_eq_of_lt (hfacts m hm).1] at hmod
  exact List.inj_on_of_nodup_map hnodup (List.mem_range.mpr hn) (List.mem_range.mpr hm) hmod

/-- What the requests are answered. -/
def siteBriefs : List (Option (String × Option String)) :=
  [none, some ("https://app.example/callback", none), some ("token", some "https://spa.example"),
   some ("token", none), some ("revoked", none), some ("form", none),
   some ("http://localhost", none)]

deriving instance DecidableEq for VerifiedGoogleIdentity

/-- What Google was asked, and what it answered. -/
def exchangedIn (h : Record) : List (String × String × String × Option VerifiedGoogleIdentity) :=
  h.filterMap fun
    | .answered (.exchange code verifier nonce) a => some (code, verifier, nonce, a)
    | _ => none

theorem site_run : site.store.calls.length ≤ 14 ∧
    site.workers.map (fun w => w.result.bind brief) = siteBriefs ∧
    (site.store.db.rows .refreshFamilies).map (fun f => (FamilyRow.revokedAt f).isSome) = [true] ∧
    (site.store.db.rows .providerSessions).map (fun s => (SessionRow.revokedAt s).isSome) =
      [true] ∧
    (site.workers.flatMap fun w => exchangedIn w.record) =
      [("google", secret 3, secret 2, some Eri.Sample.identity)] := by
  decide +kernel

/-- The draws of its calls are apart. -/
theorem site_pairwise : ((application siteCrates siteKeys).serial nthCall Sql.Db.empty
    siteTasks).store.calls.Pairwise (application siteCrates siteKeys).contract.compat := by
  refine Sql.Service.serial_pairwise fun n m c c' hlt hm => ?_
  have hm : m < 14 := Nat.lt_of_lt_of_le hm site_run.1
  refine apart_of_draws _ (fun i j => ?_) fun i j e => ?_
  · have : 2 * n + (i : Nat) < 2 * m + (j : Nat) := by omega
    exact Nat.ne_of_lt this
  · have hne : 4 * n + (i : Nat) ≠ 4 * m + (j : Nat) := by omega
    exact hne (siteHash_inj (by omega) (by omega) e)

theorem siteAnswer_answers (q : Ask) :
    siteProvider.Answers siteCrates.toPlatform q (siteAnswer q) := by
  cases q with
  | resolve clientId => exact ⟨.error .fetchFailed, 0, rfl⟩
  | _ => exact trivial

/-- **The run is one of the application.** -/
theorem site_runs : Running siteCrates siteKeys site := by
  have hanswer : ∀ task ∈ siteTasks, ∀ q,
      (application siteCrates siteKeys).answers task.1 q (task.2 q) := by
    intro task htask q
    obtain ⟨r, _, rfl⟩ := List.mem_map.mp htask
    exact siteAnswer_answers q
  have hmake : ∀ n c, (application siteCrates siteKeys).asks (nthCall n c) = c ∧
      (application siteCrates siteKeys).possible (nthCall n c) :=
    fun n c => ⟨rfl, fun k => isSecret_secret _⟩
  have hrun := @Sql.Service.reachable_serial _ _ _ _ _ (application siteCrates siteKeys)
    Sql.Db.empty nthCall hmake siteTasks hanswer site_pairwise
  exact hrun.1

/-- The worker of a request, at its end. -/
theorem site_at {i : Nat} {b : String × Option String} (h : siteBriefs[i]? = some (some b)) :
    ∃ endpoint record a, siteRequests[i]? = some endpoint ∧ brief a = some b ∧
      site.At i (siteProvider, endpoint) record (.ready (.done a)) := by
  rw [← site_run.2.1, List.getElem?_map] at h
  obtain ⟨w, hw, hbrief⟩ := Option.map_eq_some_iff.mp h
  obtain ⟨a, hresult, hbrief⟩ := Option.bind_eq_some_iff.mp hbrief
  have hdone : (site.workers[i]?).bind Sql.Worker.result = some a := by rw [hw]; exact hresult
  obtain ⟨w', hw', hat⟩ := Sql.Server.at_of_result hdone
  have htask : (site.workers.map Sql.Worker.task)[i]? = some w'.task := by
    rw [List.getElem?_map, hw']
    rfl
  have htasks : site.workers.map Sql.Worker.task = siteRequests.map fun r => (siteProvider, r) := by
    refine (Sql.Service.serial_tasks (V := application siteCrates siteKeys) siteTasks).trans ?_
    unfold siteTasks
    rw [List.map_map]
    rfl
  rw [htasks, List.getElem?_map] at htask
  obtain ⟨endpoint, hendpoint, e⟩ := Option.map_eq_some_iff.mp htask
  rw [← e] at hat
  exact ⟨endpoint, w'.record, a, hendpoint, hbrief, hat⟩

end Sample

/-- A browser that signs in at the application signs in at the browser flow. -/
theorem application_browses_site : ∃ j record r,
    ((browsing Sample.siteCrates Sample.siteKeys).see Sample.site).At j
      (Sample.siteProvider, .callback (some ("code=google&state=" ++ Sample.secret 0))
        [("cookie", utf8 (txCookie 0 false ++ "=" ++ Sample.secret 1))]) record
      (.ready (.done r)) ∧
    r.page.client.map Prod.fst = some "https://app.example/callback" := by
  obtain ⟨endpoint, record, a, hendpoint, hbrief, hat⟩ := Sample.site_at (i := 1) rfl
  obtain rfl := Option.some.inj hendpoint
  obtain ⟨_, _, _, hworkers, _⟩ := application_browses Sample.site_runs
  cases a with
  | page r =>
      obtain ⟨j, hj⟩ := hworkers 1 _ _ record r hat
      refine ⟨j, record, r, hj, ?_⟩
      obtain ⟨e, he, hb⟩ := Option.map_eq_some_iff.mp hbrief
      rw [he]
      exact congrArg (fun b : String × Option String => some b.1) hb
  | token a =>
      have hends := Sample.site_runs.obeying.ended hat
      exact hends.elim
  | api a => exact (Sample.site_runs.obeying.ended hat).elim
  | logout a => exact (Sample.site_runs.obeying.ended hat).elim

end Web

end Eri
