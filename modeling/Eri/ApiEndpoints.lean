/-
  File:      Eri/ApiEndpoints.lean
  Subject:   The endpoints that scripts call besides the token endpoint (src/web.rs, userinfo,
             revoke and api_options, with cors).

  * `ApiAnswer`, `cors` -- a status, a JSON object, and the origin that may read it;
  * `userinfoHandler`, `revoke`, `apiOptions`;
  * `userinfo_eq` -- the handler answers what `userinfo` answers for the profile it is given;
  * **`userinfoHandler_meets`**, **`revoke_meets`** -- the one call each of them makes.
-/
import Eri.LogoutEndpoint
import Eri.TokenEndpoint

namespace Eri

def Reply.asRevoked : Reply → Option (Except BrowserError Unit)
  | .revoked r => some (r.mapError fun _ => .invalid)
  | _ => none

def Reply.asProfile : Reply → Option UserProfile
  | .profile r => r
  | _ => none

/-- Some client declares the origin. -/
def ClientRegistry.reviewedBrowserOrigin (R : ClientRegistry) (origin : String) : Bool :=
  R.clients.any fun client => decide (origin ∈ client.browserOrigins)

/-- **An origin of a client is an origin of some client.** -/
theorem ClientRegistry.reviewed_of_valid {R : ClientRegistry} {client origin : String}
    (h : R.validBrowserOrigin client origin = true) : R.reviewedBrowserOrigin origin = true := by
  unfold ClientRegistry.validBrowserOrigin at h
  obtain ⟨c, hc, horigin⟩ := (Option.any_eq_true _ _).mp h
  exact List.any_eq_true.mpr ⟨c, List.mem_of_find?_eq_some hc, horigin⟩

namespace Web

open Sql (Process)
open Sql.Process

/-! ## 1. Answers -/

/-- What scripts are answered: the members of a JSON object, none for an empty body, and the
    origin that is allowed to read it. -/
structure ApiAnswer where
  status : Nat
  body : List (String × Json)
  allowOrigin : Option String

def tokenError (c : String) : ApiAnswer := ⟨400, [("error", .str c)], none⟩

def bearerError : ApiAnswer := ⟨401, [("error", .str "invalid_token")], none⟩

/-- `cors`: the origin a header can carry (`HeaderValue::from_str`). -/
def cors (o : Option String) : Option String :=
  o.filter fun v => (utf8 v).all fun b => b == 9 || (32 ≤ b && b ≤ 126)

theorem cors_some {o : Option String} {v : String} (h : cors o = some v) : o = some v :=
  (Option.filter_eq_some_iff.mp h).1

/-! ## 2. The handlers -/

section Handlers

variable (C : HttpCrates) {K : KeyCrates} (keys : SigningKeys K) (p : Provider)

/-- The claims of a token that passed every check of `userinfo` but the last. -/
def userinfoClaims (now later : Nat) (headers : HeaderMap) (body : List UInt8) :
    Option AccessClaims := do
  let token ← bearerToken C headers body
  let claims ← (verify keys (AccessClaims.ofJson K) token p.issuer p.userinfo now).toOption
  if !claims.readable later then none
  else if (origin headers).any fun o => !p.registry.validBrowserOrigin claims.clientId o then none
  else some claims

/-- `userinfo`, which verifies at `now` and checks at `later`. -/
def userinfoHandler (now later : Nat) (headers : HeaderMap) (body : List UInt8) :
    Handler ApiAnswer :=
  match userinfoClaims C keys p now later headers body with
  | none => pure bearerError
  | some claims => do
      let reply ← Process.perform (I := surroundings) (.userProfile claims.sub)
      match reply.bind Reply.asProfile with
      | none => pure bearerError
      | some profile =>
          pure ⟨200, disclosed K claims.sub (splitScopes claims.scope) profile,
            cors (origin headers)⟩

/-- The client and the token of a request, if its origin may revoke. -/
def readRevoke (headers : HeaderMap) (body : List UInt8) : Except String (String × String) :=
  match pairsBytes C body 4096 with
  | none => .error "invalid_request"
  | some q =>
      match one q "client_id", one q "token" with
      | some client, some value =>
          if (origin headers).any fun o => !p.registry.validBrowserOrigin client o then
            .error "invalid_client"
          else .ok (client, value)
      | _, _ => .error "invalid_request"

def revoke (headers : HeaderMap) (body : List UInt8) : Handler ApiAnswer :=
  match readRevoke C p headers body with
  | .error e => pure (tokenError e)
  | .ok (client, value) => do
      match ← store (.revokeRefresh value client) Reply.asRevoked with
      | .error _ => pure ⟨503, [("error", .str "server_error")], cors (origin headers)⟩
      | .ok () => pure ⟨200, [], cors (origin headers)⟩

/-- The text of the first field of a name. -/
def headerText (headers : HeaderMap) (name : String) : Option (List Char) :=
  (getAll headers name).head?.bind toStr

/-- The headers a preflight asks for. -/
def requestedHeaders (headers : HeaderMap) : List String :=
  (((headerText headers "access-control-request-headers").getD []).splitOn ',').map fun v =>
    Cimd.lower (Cimd.trim v)

def apiOptions (headers : HeaderMap) : ApiAnswer :=
  match origin headers with
  | none => ⟨400, [], none⟩
  | some o =>
      let method := (headerText headers "access-control-request-method").map String.ofList
      let headersValid := (requestedHeaders headers).all fun v =>
        v.isEmpty || v == "authorization" || v == "content-type"
      if !p.registry.reviewedBrowserOrigin o || !(method == some "GET" || method == some "POST") ||
          !headersValid then ⟨403, [], none⟩
      else ⟨204, [], cors (some o)⟩

end Handlers

/-! ## 3. What the handlers do -/

section Meets

variable {C : HttpCrates} {K : KeyCrates} {keys : SigningKeys K} {p : Provider} {now later : Nat}
  {headers : HeaderMap} {body : List UInt8} {h : Record}
  {ok : (q : surroundings.Ask) → surroundings.Answer q → Prop}

/-- **The handler answers what `userinfo` answers** for the profile it is given. -/
theorem userinfo_eq (profileOf : Uuid → Option UserProfile) :
    userinfo C keys p profileOf now later headers body =
      (userinfoClaims C keys p now later headers body).bind fun claims =>
        (profileOf claims.sub).map (disclosed K claims.sub (splitScopes claims.scope)) := by
  unfold userinfo userinfoClaims
  cases bearerToken C headers body with
  | none => rfl
  | some token =>
      cases hclaims : (verify keys (AccessClaims.ofJson K) token p.issuer p.userinfo
          now).toOption with
      | none => simp only [Option.bind_eq_bind, Option.bind_some, hclaims, Option.bind_none]
      | some claims =>
          simp only [Option.bind_eq_bind, Option.bind_some, hclaims]
          split
          · rfl
          split
          · rfl
          simp only [Option.bind_some]
          cases profileOf claims.sub with
          | none => rfl
          | some profile => rfl

/-- The origin of a request that was read is one of the client of its token. -/
theorem userinfoClaims_origin {c : AccessClaims}
    (h : userinfoClaims C keys p now later headers body = some c) :
    ∀ o, origin headers = some o → p.registry.validBrowserOrigin c.clientId o = true := by
  intro o ho
  simp only [userinfoClaims, Option.bind_eq_bind, Option.bind_eq_some_iff] at h
  obtain ⟨_, _, claims, _, h⟩ := h
  split at h
  · cases h
  split at h
  · cases h
  rename_i horigin
  cases h
  by_contra hno
  exact horigin (by simp [ho, hno])

theorem readRevoke_origin {client value : String}
    (h : readRevoke C p headers body = .ok (client, value)) :
    ∀ o, origin headers = some o → p.registry.validBrowserOrigin client o = true := by
  intro o ho
  unfold readRevoke at h
  split at h
  · cases h
  split at h
  · split at h
    · cases h
    rename_i horigin
    cases h
    by_contra hno
    exact horigin (by simp [ho, hno])
  · cases h

theorem readToken_origin {q : List (String × String)} {a : TokenParams}
    (h : readToken C p headers body = .ok (q, a)) :
    ∀ o, origin headers = some o → p.registry.validBrowserOrigin a.client o = true := by
  intro o ho
  unfold readToken at h
  split at h
  · cases h
  split at h
  · cases h
  obtain ⟨-, h⟩ := ite_ok h
  obtain ⟨horigin, h⟩ := ite_ok h
  obtain ⟨resource, -, h⟩ := bind_ok h
  obtain ⟨scope, -, h⟩ := bind_ok h
  cases h
  by_contra hno
  exact horigin (by simp [ho, hno])

/-- The call of a UserInfo request: the profile of the user of its token. -/
def UserinfoCall (C : HttpCrates) {K : KeyCrates} (keys : SigningKeys K) (p : Provider)
    (now later : Nat) (headers : HeaderMap) (body : List UInt8) (_ : Record) (call : Call) : Prop :=
  ∃ c, userinfoClaims C keys p now later headers body = some c ∧ call = .userProfile c.sub

/-- The call of a revocation: the token it names, for the client it names. -/
def RevokeCall (C : HttpCrates) (p : Provider) (headers : HeaderMap) (body : List UInt8)
    (_ : Record) (call : Call) : Prop :=
  ∃ client value, readRevoke C p headers body = .ok (client, value) ∧
    call = .revokeRefresh value client

/-- **UserInfo reads one profile**, that of the user of the token, and tells no more of it than
    the scopes of the token allow. -/
theorem userinfoHandler_meets :
    Meets (I := surroundings) ok (UserinfoCall C keys p now later headers body)
      (userinfoHandler C keys p now later headers body) h fun h' answer =>
        answer = bearerError ∨ ∃ c n profile,
          userinfoClaims C keys p now later headers body = some c ∧
          h' = h ++ [.called n (.userProfile c.sub), .replied n (some (.profile (some profile)))] ∧
          answer =
            ⟨200, disclosed K c.sub (splitScopes c.scope) profile, cors (origin headers)⟩ := by
  unfold userinfoHandler
  cases hclaims : userinfoClaims C keys p now later headers body with
  | none => exact Or.inl rfl
  | some c =>
      refine meets_bind.mpr (meets_perform.mpr ⟨⟨c, hclaims, rfl⟩, fun n r => ?_⟩)
      cases hprofile : r.bind Reply.asProfile with
      | none => exact Or.inl rfl
      | some profile =>
          obtain ⟨reply, rfl, hreply⟩ := Option.bind_eq_some_iff.mp hprofile
          have hshape : reply = .profile (some profile) := by
            cases reply with
            | profile r => exact congrArg _ hreply
            | _ => cases hreply
          rw [hshape]
          exact Or.inr ⟨c, n, profile, rfl, rfl, rfl⟩

/-- **A revocation makes one call**, and what it answers tells only whether the store did. -/
theorem revoke_meets :
    Meets (I := surroundings) ok (RevokeCall C p headers body)
      (revoke C p headers body) h fun h' answer =>
        (∃ e, readRevoke C p headers body = .error e ∧ h' = h ∧ answer = tokenError e) ∨
        ∃ client value n r, readRevoke C p headers body = .ok (client, value) ∧
          h' = h ++ [.called n (.revokeRefresh value client), .replied n r] ∧
          ((r = some (.revoked (.ok ())) ∧ answer = ⟨200, [], cors (origin headers)⟩) ∨
            (r ≠ some (.revoked (.ok ())) ∧
              answer = ⟨503, [("error", .str "server_error")], cors (origin headers)⟩)) := by
  unfold revoke
  cases hread : readRevoke C p headers body with
  | error e => exact Or.inl ⟨e, rfl, rfl, rfl⟩
  | ok request =>
      obtain ⟨client, value⟩ := request
      refine meets_bind.mpr (meets_store_iff.mpr ⟨⟨client, value, hread, rfl⟩, fun n r => ?_⟩)
      cases hx : (r.bind Reply.asRevoked).getD (.error .database) with
      | error e =>
          refine Or.inr ⟨client, value, n, r, rfl, rfl, Or.inr ⟨?_, rfl⟩⟩
          rintro rfl
          exact nomatch hx
      | ok u =>
          obtain ⟨reply, rfl, hreply⟩ := reply_of_value hx
          refine Or.inr ⟨client, value, n, some reply, rfl, rfl, Or.inl ⟨?_, rfl⟩⟩
          cases reply with
          | revoked r => rw [mapError_value hreply]
          | _ => cases hreply

end Meets

end Web

end Eri
