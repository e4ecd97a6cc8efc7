/-
  File:      Eri/TokenEndpoint.lean
  Subject:   The token endpoint (src/web.rs, token).

  A request is read, its client is resolved, and a code is exchanged or a token rotated under
  the policy the client resolved to; once more when the lease of that policy expired. What comes
  back is made into tokens.

  * `readToken`, `grantCall` -- what is read of a request, and the call it stands for;
  * `token` -- the handler;
  * `token_meets` -- **it makes no other call**, and its tokens are those of the last reply.
-/
import Eri.Specs.Web
import Eri.Tokens

namespace Eri

def Reply.asExchange : Reply → Option (Except CredentialError ExchangeResult)
  | .exchanged r => some r
  | _ => none

/-- The scopes that an exchange or a rotation states. -/
def Call.statedScopes : Call → Option (Option (List String))
  | .exchangeCodeRequest _ _ _ _ _ scopes _ | .rotateRefreshRequest _ _ _ scopes _ => some scopes
  | _ => none

namespace Web

open Sql (Process)
open Sql.Process

/-! ## 1. Requests -/

/-- What is read of a request before its grant type. -/
structure TokenParams where
  client : String
  resource : Option String
  scopes : Option (List String)

section Read

variable (C : HttpCrates) (p : Provider)

/-- The checks before the loop, with the form. -/
def readToken (headers : HeaderMap) (body : List UInt8) :
    Except String (List (String × String) × TokenParams) :=
  match pairsBytes C body 8192 with
  | none => .error "invalid_request"
  | some q =>
      match one q "client_id" with
      | none => .error "invalid_request"
      | some client =>
          if ["client_secret", "client_assertion", "client_assertion_type"].any fun name =>
              q.any fun e => e.1 = name then
            .error "invalid_client"
          else if (origin headers).any fun o => !p.registry.validBrowserOrigin client o then
            .error "invalid_client"
          else do
            let resource ← optional q "resource"
            let scope ← optional q "scope"
            pure (q, ⟨client, resource, scope.map splitScopes⟩)

end Read

/-- The call of a request under a policy, and whether it is a first exchange. -/
def grantCall (q : List (String × String)) (a : TokenParams) (registry : ClientRegistry) :
    Except String (Call × Bool) :=
  if one q "grant_type" = some "authorization_code" then
    match one q "code", one q "redirect_uri", one q "code_verifier" with
    | some code, some redirect, some verifier =>
        .ok (.exchangeCodeRequest code a.client redirect a.resource verifier a.scopes registry,
          true)
    | _, _, _ => .error "invalid_request"
  else if one q "grant_type" = some "refresh_token" then
    match one q "refresh_token" with
    | some refresh =>
        .ok (.rotateRefreshRequest refresh a.client a.resource a.scopes registry, false)
    | none => .error "invalid_request"
  else .error "unsupported_grant_type"

/-! ## 2. The handler -/

/-- What the store returned, for a first exchange or not. -/
abbrev Exchanged : Type := Except CredentialError ExchangeResult × Bool

/-- One pass of the loop. -/
def tokenAttempt (q : List (String × String)) (a : TokenParams) : Fallible Exchanged := do
  match ← resolveClient a.client with
  | none => throw "invalid_grant"
  | some registry =>
      let (grant, initial) ← fromExcept (grantCall q a registry)
      let reply ← Process.perform (I := surroundings) grant
      pure ((reply.bind Reply.asExchange).getD (.error .database), initial)

def tokenLoop (q : List (String × String)) (a : TokenParams) : Fallible Exchanged := do
  match ← tokenAttempt q a with
  | (.error .metadataExpired, _) => tokenAttempt q a
  | result => pure result

/-- An error or the tokens, and the origin that is allowed to read them. -/
structure TokenAnswer where
  result : Except String TokenResponse
  allowOrigin : Option String

section Token

variable (C : HttpCrates) {K : KeyCrates} (keys : SigningKeys K) (p : Provider)

/-- The tokens of what the store returned; `now` and `jti` are what `issue` draws. -/
def tokenResult (now : Nat) (jti : Uuid) : Exchanged → Except String TokenResponse
  | (.ok x, initial) =>
      (issue keys p.issuer p.userinfo x initial now jti).mapError fun _ => "server_error"
  | (.error _, _) => .error "invalid_grant"

def token (now : Nat) (jti : Uuid) (headers : HeaderMap) (body : List UInt8) :
    Handler TokenAnswer :=
  match readToken C p headers body with
  | .error e => pure ⟨.error e, none⟩
  | .ok (q, a) => do
      match ← (tokenLoop q a).run with
      | .error e => pure ⟨.error e, none⟩
      | .ok result => pure ⟨tokenResult keys p now jti result, origin headers⟩

end Token

/-! ## 3. What is read -/

section Reading

variable {C : HttpCrates} {p : Provider} {headers : HeaderMap} {body : List UInt8}
  {q : List (String × String)} {a : TokenParams}

/-- The scopes of a request are its parameter, cut at every space. -/
theorem readToken_ok (h : readToken C p headers body = .ok (q, a)) :
    pairsBytes C body 8192 = some q ∧ one q "client_id" = some a.client ∧
      optional q "resource" = .ok a.resource ∧
      ∃ scope, optional q "scope" = .ok scope ∧ a.scopes = scope.map splitScopes := by
  unfold readToken at h
  cases hpairs : pairsBytes C body 8192 with
  | none =>
      rw [hpairs] at h
      cases h
  | some q' =>
      rw [hpairs] at h
      dsimp only at h
      cases hclient : one q' "client_id" with
      | none =>
          rw [hclient] at h
          cases h
      | some client =>
          rw [hclient] at h
          obtain ⟨-, h⟩ := ite_ok h
          obtain ⟨-, h⟩ := ite_ok h
          obtain ⟨resource, hresource, h⟩ := bind_ok h
          obtain ⟨scope, hscope, h⟩ := bind_ok h
          cases h
          exact ⟨rfl, hclient, hresource, scope, hscope, rfl⟩

/-- The call of a request states them. -/
theorem grantCall_ok {R : ClientRegistry} {call : Call} {initial : Bool}
    (h : grantCall q a R = .ok (call, initial)) : call.statedScopes = some a.scopes := by
  unfold grantCall at h
  split at h
  · split at h
    · cases h
      rfl
    · cases h
  split at h
  · split at h
    · cases h
      rfl
    · cases h
  · cases h

end Reading

/-! ## 4. What the handler does -/

section Meets

variable {C : HttpCrates} {K : KeyCrates} {keys : SigningKeys K} {p : Provider} {now : Nat}
  {jti : Uuid} {headers : HeaderMap} {body : List UInt8} {q : List (String × String)}
  {a : TokenParams} {h : Record} {ok : (q : surroundings.Ask) → surroundings.Answer q → Prop}

/-- **The calls of a request**: the one it stands for, under a policy its client resolved to. -/
def TokenCall (C : HttpCrates) (p : Provider) (headers : HeaderMap) (body : List UInt8)
    (h : Record) (call : Call) : Prop :=
  ∃ q a R initial, readToken C p headers body = .ok (q, a) ∧ Resolved h a.client R ∧
    grantCall q a R = .ok (call, initial)

/-- **What is answered**: tokens are those of the reply to the last call. -/
def TokenEnds (keys : SigningKeys K) (p : Provider) (now : Nat) (jti : Uuid) (h : Record)
    (answer : TokenAnswer) : Prop :=
  ∀ tokens, answer.result = .ok tokens → ∃ past n call x initial,
    h = past ++ [.called n call, .replied n (some (.exchanged (.ok x)))] ∧
      issue keys p.issuer p.userinfo x initial now jti = .ok tokens

theorem asExchange_eq {r : Reply} {x : ExchangeResult} (h : r.asExchange = some (.ok x)) :
    r = .exchanged (.ok x) := by
  cases r <;> cases h
  rfl

/-- One pass makes the call under the policy that was resolved for it. -/
theorem tokenAttempt_meets {Q : Record → Except String Exchanged → Prop}
    (hread : readToken C p headers body = .ok (q, a))
    (hok : ∀ h' past n call r initial, h <+: h' →
      h' = past ++ [.called n call, .replied n r] →
      Q h' (.ok ((r.bind Reply.asExchange).getD (.error .database), initial)))
    (herr : ∀ h' e, h <+: h' → Q h' (.error e)) :
    Meets (I := surroundings) ok (TokenCall C p headers body) (tokenAttempt q a).run h Q := by
  unfold tokenAttempt
  refine meets_bindE.mpr (meets_liftE.mpr (meets_resolve (fun h' hh => herr h' _ hh) ?_))
  intro h₁ R hh₁ hR
  refine meets_bindE.mpr (meets_fromExcept.mpr ?_)
  cases hcall : grantCall q a R with
  | error e => exact herr h₁ e hh₁
  | ok grant =>
      obtain ⟨call, initial⟩ := grant
      refine meets_bindE.mpr (meets_liftE.mpr (meets_perform.mpr
        ⟨⟨q, a, R, initial, hread, hR, hcall⟩, fun n r => ?_⟩))
      exact hok _ h₁ n call r initial (hh₁.trans (List.prefix_append ..)) rfl

/-- **The handler makes no other call**, and its tokens are those of the last reply. -/
theorem token_meets (h : Record) :
    Meets (I := surroundings) ok (TokenCall C p headers body)
      (token C keys p now jti headers body) h (TokenEnds keys p now jti) := by
  have hnone : ∀ (h' : Record) e o, TokenEnds keys p now jti h' ⟨.error e, o⟩ :=
    fun h' e o tokens htokens => by cases htokens
  unfold token
  cases hread : readToken C p headers body with
  | error e => exact hnone h e none
  | ok request =>
      obtain ⟨q, a⟩ := request
      -- what a pass ends in is the reply to the last call
      have hlast : ∀ (h' past : Record) n call r initial,
          h' = past ++ [.called n call, .replied n r] →
          TokenEnds keys p now jti h' ⟨tokenResult keys p now jti
            ((r.bind Reply.asExchange).getD (.error .database), initial), origin headers⟩ := by
        rintro _ past n call r initial rfl tokens htokens
        match hx : (r.bind Reply.asExchange).getD (.error .database) with
        | .error e =>
            rw [hx] at htokens
            cases htokens
        | .ok x =>
            rw [hx] at htokens
            obtain ⟨reply, rfl, hreply⟩ : ∃ reply, r = some reply ∧
                reply.asExchange = some (.ok x) := by
              cases r with
              | none => cases hx
              | some reply =>
                  refine ⟨reply, rfl, ?_⟩
                  cases hreply : reply.asExchange with
                  | none =>
                      rw [Option.bind_some, hreply] at hx
                      cases hx
                  | some value =>
                      rw [Option.bind_some, hreply, Option.getD_some] at hx
                      rw [hx]
            rw [asExchange_eq hreply]
            exact ⟨past, n, call, x, initial, rfl, mapError_ok.mp htokens⟩
      have hpass : ∀ h', Meets (I := surroundings) ok (TokenCall C p headers body)
          (tokenAttempt q a).run h' fun h'' r => TokenEnds keys p now jti h'' (match r with
            | .error e => ⟨.error e, none⟩
            | .ok result => ⟨tokenResult keys p now jti result, origin headers⟩) := fun h' =>
        tokenAttempt_meets hread (fun h'' past n call r initial _ e =>
          hlast h'' past n call r initial e) fun h'' e _ => hnone h'' e none
      have hloop : Meets (I := surroundings) ok (TokenCall C p headers body)
          (tokenLoop q a).run h fun h'' r => TokenEnds keys p now jti h'' (match r with
            | .error e => ⟨.error e, none⟩
            | .ok result => ⟨tokenResult keys p now jti result, origin headers⟩) := by
        unfold tokenLoop
        refine meets_bindE.mpr ((hpass h).mono fun h' r _ hr => ?_)
        cases r with
        | error e => exact hr
        | ok result =>
            dsimp only
            split
            · exact hpass h'
            · exact hr
      refine meets_bind.mpr (hloop.mono fun h' r _ hr => ?_)
      cases r with
      | error e => exact hr
      | ok result => exact hr

end Meets

end Web

end Eri
