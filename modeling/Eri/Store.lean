/-
  File:      Eri/Store.lean
  Subject:   The calls of the stores, as one machine runs them.

  A `Request` is a call with the tape of everything it reads besides rows. Two requests of a
  run draw different ids and different credential hashes (`contract.compat`), which is what
  random values are assumed to do; clocks and leases read anything. `Sample` has the readings
  of runs made by hand, for the statements that need one.
-/
import Eri.Logout

namespace Eri

/-- The operations of `CredentialStore`, `BrowserStore`, `LogoutStore` and `Database`. -/
inductive Call where
  | createProviderSession (user : AuthenticatedUser) (lifetime : Duration)
  | findProviderSession (raw : String)
  | issueAuthorizationCode (session : ProviderSession) (grant : ValidatedAuthorizationGrant)
      (lifetime : Duration)
  | exchangeCode (raw clientId redirectUri resource verifier : String)
  | exchangeCodeRequest (raw clientId redirectUri : String) (resource : Option String)
      (verifier : String) (scopes : Option (List String)) (registry : ClientRegistry)
  | rotateRefresh (raw clientId resource : String)
  | rotateRefreshRequest (raw clientId : String) (resource : Option String)
      (scopes : Option (List String)) (registry : ClientRegistry)
  | revokeRefresh (raw clientId : String)
  | logout (session : ProviderSession)
  | beginLogout (session : ProviderSession) (clientId redirect : String)
      (state : Option String) (registry : ClientRegistry)
  | beginLocal (session : ProviderSession) (localUri : String)
  | finish (session : ProviderSession) (challenge : LogoutChallenge) (registry : ClientRegistry)
  | finishHint (session : ProviderSession) (challenge : LogoutChallenge)
      (registry : ClientRegistry) (hint : IdClaims)
  | transactionClientId (id : Uuid)
  | callbackClientId (claim : String)
  | beginGoogle (pending : PendingAuthorizationGrant) (downstreamState oidcNonce : Option String)
      (allowPreAuthorization : Bool)
  | startGoogle (transactionId : Uuid) (state binding : String)
  | cancelGoogle (transactionId : Uuid) (state binding : String)
      (registry : Option ClientRegistry)
  | beginAuthenticated (session : ProviderSession) (pending : PendingAuthorizationGrant)
      (downstreamState oidcNonce : Option String) (allowPreAuthorization : Bool)
  | sessionUpstreamAuthTime (session : ProviderSession)
  | claimCallback (state binding : String)
  | failCallback (claim : String)
  | denyCallback (claim : String) (registry : ClientRegistry)
  | completeCallback (claim : String) (identity : VerifiedGoogleIdentity)
      (sessionLifetime : Duration) (registry : Option ClientRegistry)
  | approve (session : ProviderSession) (handle : ConsentHandle) (registry : ClientRegistry)
  | approvePreAuthorized (session : ProviderSession) (handle : ConsentHandle)
      (registry : ClientRegistry)
  | consentView (session : ProviderSession) (handle : ConsentHandle) (registry : ClientRegistry)
  | deny (session : ProviderSession) (handle : ConsentHandle) (registry : Option ClientRegistry)
  | findOrCreateExternalIdentity (issuer subject : String)
  | findOrCreateVerifiedGoogleIdentity (identity : VerifiedGoogleIdentity)
  | userProfile (user : Uuid)

/-- What a call returns. -/
inductive Reply where
  | session (r : Except CredentialError ProviderSession)
  | code (r : Except CredentialError String)
  | exchanged (r : Except CredentialError ExchangeResult)
  | revoked (r : Except CredentialError Unit)
  | challenge (r : Except CredentialError LogoutChallenge)
  | finished (r : Except CredentialError LogoutOutcome)
  | hinted (r : Except CredentialError (Option LogoutOutcome))
  | client (r : Except BrowserError String)
  | begun (r : Except BrowserError BrowserStart)
  | started (r : Except BrowserError (String × String))
  | denied (r : Except BrowserError DenialOutcome)
  | handle (r : Except BrowserError ConsentHandle)
  | authTime (r : Except BrowserError (Option Time))
  | claimed (r : Except BrowserError (String × String × String))
  | failed (r : Except BrowserError Unit)
  | completed (r : Except BrowserError LoginCompletion)
  | approved (r : Except BrowserError ConsentOutcome)
  | preApproved (r : Except BrowserError (Option ConsentOutcome))
  | view (r : Except BrowserError ConsentView)
  | user (u : Uuid)
  | authenticated (u : AuthenticatedUser)
  | profile (p : Option UserProfile)

/-- The call succeeded. -/
def Reply.isOk : Reply → Bool
  | .session r => r.isOk
  | .code r => r.isOk
  | .exchanged r => r.isOk
  | .revoked r => r.isOk
  | .challenge r => r.isOk
  | .finished r => r.isOk
  | .hinted r => r.isOk
  | .client r => r.isOk
  | .begun r => r.isOk
  | .started r => r.isOk
  | .denied r => r.isOk
  | .handle r => r.isOk
  | .authTime r => r.isOk
  | .claimed r => r.isOk
  | .failed r => r.isOk
  | .completed r => r.isOk
  | .approved r => r.isOk
  | .preApproved r => r.isOk
  | .view r => r.isOk
  | .user _ | .authenticated _ | .profile _ => true

/-- A call and what it reads besides rows. -/
structure Request where
  call : Call
  tape : Tape

section Program

variable (P : Platform)

def program (r : Request) : Sql.Tx schema Reply :=
  let t := r.tape
  match r.call with
  | .createProviderSession user lifetime =>
      (createProviderSession P t user lifetime).tx.map .session
  | .findProviderSession raw => (findProviderSession P t raw).tx.map .session
  | .issueAuthorizationCode session grant lifetime =>
      (issueAuthorizationCode P t session grant lifetime).tx.map .code
  | .exchangeCode raw clientId redirectUri resource verifier =>
      (exchangeCode P t raw clientId redirectUri resource verifier).tx.map .exchanged
  | .exchangeCodeRequest raw clientId redirectUri resource verifier scopes registry =>
      (exchangeCodeRequest P t raw clientId redirectUri resource verifier scopes registry).tx.map
        .exchanged
  | .rotateRefresh raw clientId resource =>
      (rotateRefresh P t raw clientId resource).tx.map .exchanged
  | .rotateRefreshRequest raw clientId resource scopes registry =>
      (rotateRefreshRequest P t raw clientId resource scopes registry).tx.map .exchanged
  | .revokeRefresh raw clientId => (revokeRefresh P t raw clientId).tx.map .revoked
  | .logout session => (logout t session).tx.map .revoked
  | .beginLogout session clientId redirect state registry =>
      (beginLogout P t session clientId redirect state registry).tx.map .challenge
  | .beginLocal session localUri => (beginLocal P t session localUri).tx.map .challenge
  | .finish session challenge registry => (finish P t session challenge registry).map .finished
  | .finishHint session challenge registry hint =>
      (finishHint P t session challenge registry hint).tx.map .hinted
  | .transactionClientId id => (transactionClientId id).tx.map .client
  | .callbackClientId claim => (callbackClientId P claim).tx.map .client
  | .beginGoogle pending downstreamState oidcNonce allow =>
      (beginGoogle P t pending downstreamState oidcNonce allow).tx.map .begun
  | .startGoogle transactionId state binding =>
      (startGoogle P t transactionId state binding).tx.map .started
  | .cancelGoogle transactionId state binding registry =>
      (cancelGoogle P t transactionId state binding registry).tx.map .denied
  | .beginAuthenticated session pending downstreamState oidcNonce allow =>
      (beginAuthenticated P t session pending downstreamState oidcNonce allow).tx.map .handle
  | .sessionUpstreamAuthTime session => (sessionUpstreamAuthTime t session).tx.map .authTime
  | .claimCallback state binding => (claimCallback P t state binding).tx.map .claimed
  | .failCallback claim => (failCallback P claim).tx.map .failed
  | .denyCallback claim registry => (denyCallback P t claim registry).tx.map .denied
  | .completeCallback claim identity lifetime registry =>
      (completeCallback P t claim identity lifetime registry).tx.map .completed
  | .approve session handle registry => (approve P t session handle registry).tx.map .approved
  | .approvePreAuthorized session handle registry =>
      (approvePreAuthorized P t session handle registry).tx.map .preApproved
  | .consentView session handle registry =>
      (consentView P t session handle registry).tx.map .view
  | .deny session handle registry => (deny P t session handle registry).tx.map .denied
  | .findOrCreateExternalIdentity issuer subject =>
      (findOrCreateExternalIdentity P t issuer subject).tx.map .user
  | .findOrCreateVerifiedGoogleIdentity identity =>
      (findOrCreateVerifiedGoogleIdentity P t identity).tx.map .authenticated
  | .userProfile user => (userProfile user).tx.map .profile

/-- A request draws the ids and the hashes of its tape. -/
def Request.draws (r : Request) : Name → Prop
  | .id u => ∃ i, u = r.tape.uuid i
  | .hash d => ∃ k, d = r.tape.hash P k
  | _ => False

def calls : Sql.Calls (layout P) Request := ⟨Request.draws P⟩

/-- **The contract of the stores' calls.** -/
abbrev contract : Sql.Contract schema Request := (calls P).contract

/-- The runs of any number of calls from the migrated, empty database. -/
abbrev Reachable (M : Sql.Machine schema Request Reply) : Prop :=
  Sql.Reachable (program P) (contract P).compat Sql.Db.empty M

/-- A call that took effect. -/
abbrev Entry : Type := Sql.Entry schema Request Reply

/-- Calls that draw different ids and different hashes go together. -/
theorem apart_of_draws {c c' : Request} (hid : ∀ i j, c.tape.uuid i ≠ c'.tape.uuid j)
    (hhash : ∀ i j, c.tape.hash P i ≠ c'.tape.hash P j) : (contract P).compat c c' := by
  intro n h h'
  cases n with
  | id u =>
      obtain ⟨i, rfl⟩ := h
      obtain ⟨j, e⟩ := h'
      exact hid i j e
  | hash d =>
      obtain ⟨i, rfl⟩ := h
      obtain ⟨j, e⟩ := h'
      exact hhash i j e
  | source | subject | owner => exact h

end Program

/-! ## 2. Runs by hand -/

namespace Sample

/-- What the sample calls draw. -/
inductive Secret where
  | login | session | code | token | successor | replay | logout | last | state
  | binding | nonce | upstream | start | claim | cookie | csrf | granted | late
  deriving DecidableEq

def Secret.all : List Secret :=
  [.login, .session, .code, .token, .successor, .replay, .logout, .last, .state, .binding,
   .nonce, .upstream, .start, .claim, .cookie, .csrf, .granted, .late]

def Secret.text : Secret → String
  | .login => "login"
  | .session => "session"
  | .code => "code"
  | .token => "token"
  | .successor => "successor"
  | .replay => "replay"
  | .logout => "logout"
  | .last => "last"
  | .state => "state"
  | .binding => "binding"
  | .nonce => "nonce"
  | .upstream => "upstream"
  | .start => "start"
  | .claim => "claim"
  | .cookie => "cookie"
  | .csrf => "csrf"
  | .granted => "granted"
  | .late => "late"

/-- Its SHA-256. -/
def Secret.sha256 : Secret → Nat
  | .login => 0x428821350e9691491f616b754cd8315fb86d797ab35d843479e732ef90665324
  | .session => 0x3f3af1ecebbd1410ab417ec0d27bbfcb5d340e177ae159b59fc8626c2dfd9175
  | .code => 0x5694d08a2e53ffcae0c3103e5ad6f6076abd960eb1f8a56577040bc1028f702b
  | .token => 0x3c469e9d6c5875d37a43f353d4f88e61fcf812c66eee3457465a40b0da4153e0
  | .successor => 0x548e56fceb6ba189d7cd154c1a0af13de44f8cbfdb454a98ee9ebf3c10d30479
  | .replay => 0xac203c9843b5bd8c883e07039ff82820c94422010be6108bb82403ca25376a22
  | .logout => 0x00270cf63f93c307e7e9d2cc7e639fa50aca58eeb64be3266a798c9c19535219
  | .last => 0x3547cb112ac4489af2310c0626cdba6f3097a2ad5a3b42ddd3b59c76c7a079a3
  | .state => 0x4ba69735ca53765ed6a709edb56c6ea236b7193a3b29a6b390c346f0f4340e4e
  | .binding => 0x80f70afeef3caa57646fd20afb95be9c3f2c03d38e091906de31838813dcc22e
  | .nonce => 0x78377b525757b494427f89014f97d79928f3938d14eb51e20fb5dec9834eb304
  | .upstream => 0x1581e27de87bffae0bd4d745cd7964e68528d7a83e2e4c259a782d275df6f558
  | .start => 0xcced28c6dc3f99c2396a5eaad732bf6b28142335892b1cd0e6af6cdb53f5ccfa
  | .claim => 0xdd1b3c312cf7d816130354452e9629ce39355b0c534129dd26a08cd9a4502ede
  | .cookie => 0xd7e83e28a04b537e64424546b14caf9b67bad2f28dabce68116e0d372319fa00
  | .csrf => 0x7ce12ba8782a32f74357cefb81edb8c20ea4d755115ecb4063348b8cc9d41f34
  | .granted => 0xdd515d1975b8e5a83bab3420bea5dacefe5451ac7cf617d23c4393cc79e4db99
  | .late => 0x089001a35679a33ef3db0ca350db9b9a2f0136e0e327577b04b3b98127470961

/-- The verifier of RFC 7636. -/
def verifier : String := "dBjftJeZ4CVP-mB92K27uhbUJU1p1r_wW1gFWFOEjXk"

/-- The strings whose SHA-256 is known. -/
def digests : List (String × Nat) :=
  (verifier, 0x13d31e961a1ad8ec2f16b10c4c982e0876a878ad6df144566ee1894acb70f9c3) ::
    Secret.all.map fun s => (s.text, s.sha256)

/-- The crates, on what the sample calls give them. -/
def platform : Platform where
  digest input := Vector.ofFn fun i : Fin 32 => UInt8.ofNat
    (((digests.find? fun e => utf8 e.1 = input).elim 0 (·.2)) >>> (8 * (31 - i.val)))
  parse raw :=
    if raw = "https://app.example/callback" then
      some { scheme := "https", username := "", password := none
             host := some (.domain "app.example"), path := "/callback", query := none
             fragment := none, cannotBeABase := false }
    else none
  join _ _ := none
  hashText _ := 0

/-- The `k`th call of a run: it happens `k` seconds in, with ids and secrets of its own. -/
def tape (k : Nat) (secrets : List Secret) : Tape where
  now _ := k * second
  rowNow _ := k * second
  instant _ := k
  uuid i := 2 * k + i
  secret j := (secrets.getD j (secrets.headD .login)).text
  scan := id
  scan_perm _ := .refl _

/-- A call and the secrets it draws. -/
abbrev Step : Type := Call × List Secret

/-- The requests of a run, from its `k`th call on. -/
def requests (k : Nat) : List Step → List Request
  | [] => []
  | s :: steps => ⟨s.1, tape k s.2⟩ :: requests (k + 1) steps

/-- The machine after the calls of a run by hand. -/
def machine (steps : List Step) : Sql.Machine schema Request Reply :=
  Sql.sequential (program platform) Sql.Db.empty (requests 0 steps)

/-- A grant that may be refreshed, with the challenge of the verifier of RFC 7636. -/
def grant : ValidatedAuthorizationGrant where
  clientId := "app"
  redirectUri := "https://app.example/callback"
  scopes := ["offline_access", "openid"]
  resource := "https://api.example"
  codeChallenge := "E9Melhoa2OwvFrEMTJguCHaoeK1t8URWbuGJSstw-cM"
  issueRefreshToken := true
  dynamic := none
  refresh_iff := by simp

/-- The client of the grant, which needs no consent page. -/
def client : FirstPartyClient where
  id := "app"
  displayName := "App"
  redirects := [⟨"https://app.example/callback", .appClaimedHttps⟩]
  scopes := {"offline_access", "openid"}
  resources := {"https://api.example"}
  defaultResource := none
  browserOrigins := ∅
  postLogoutRedirects := ∅
  authorizationFlow := .googlePreauthorized
  logoutFlow := .interactive

def registry : ClientRegistry := ⟨[client], none, none, by decide⟩

/-- The request of the grant. -/
def pending : PendingAuthorizationGrant where
  clientId := grant.clientId
  redirectUri := grant.redirectUri
  scopes := grant.scopes
  resource := grant.resource
  codeChallenge := grant.codeChallenge
  dynamic := none
  sorted := by decide

def identity : VerifiedGoogleIdentity := ⟨"subject", none, none, none, none, none, none⟩

/-- A user signs in and a client gets a code, a token and its successor. -/
def grantSteps : List Step :=
  [(.findOrCreateVerifiedGoogleIdentity identity, [.login]),
   (.createProviderSession ⟨1, none⟩ ⟨3600, 0⟩, [.session]),
   (.issueAuthorizationCode ⟨"session", 2, 3601 * second⟩ grant ⟨60, 0⟩, [.code]),
   (.exchangeCode "code" grant.clientId grant.redirectUri grant.resource verifier, [.token]),
   (.rotateRefresh "token" grant.clientId grant.resource, [.successor])]

/-- A browser starts a transaction and comes back from Google. -/
def callbackSteps : List Step :=
  [(.beginGoogle pending (some "downstream") none true, [.state, .binding, .nonce, .upstream]),
   (.startGoogle 0 "state" "binding", [.start]),
   (.claimCallback "state" "binding", [.claim])]

/-- And the user signs in and gets a code without a consent page. -/
def browserSteps : List Step :=
  callbackSteps ++
    [(.completeCallback "claim" identity ⟨3600, 0⟩ (some registry), [.cookie, .csrf]),
     (.approvePreAuthorized ⟨"cookie", 6, 3603 * second⟩ ⟨0, "csrf"⟩ registry, [.granted])]

theorem Secret.mem_all (s : Secret) : s ∈ Secret.all := by cases s <;> decide

/-- Different secrets have different hashes. -/
theorem Secret.hash_inj {a b : Secret}
    (h : secretHash platform a.text = secretHash platform b.text) : a = b := by
  have hnodup : (Secret.all.map fun s => secretHash platform s.text).Nodup := by decide +kernel
  exact List.inj_on_of_nodup_map hnodup a.mem_all b.mem_all h

theorem mem_requests {k : Nat} {steps : List Step} {c : Request} (h : c ∈ requests k steps) :
    ∃ s ∈ steps, ∃ n, k ≤ n ∧ c = ⟨s.1, tape n s.2⟩ := by
  induction steps generalizing k with
  | nil => cases h
  | cons s steps ih =>
      rcases List.mem_cons.mp h with rfl | h
      · exact ⟨s, List.mem_cons_self, k, Nat.le_refl k, rfl⟩
      · obtain ⟨x, hx, n, hn, e⟩ := ih h
        exact ⟨x, List.mem_cons_of_mem _ hx, n, by omega, e⟩

/-- Every step draws something, and nothing is drawn twice. -/
def Apart (steps : List Step) : Prop :=
  (∀ s ∈ steps, s.2 ≠ []) ∧ (steps.flatMap (·.2)).Nodup

instance (steps : List Step) : Decidable (Apart steps) := by
  unfold Apart
  infer_instance

theorem secret_mem {k : Nat} {secrets : List Secret} (h : secrets ≠ []) (j : Fin 4) :
    ∃ s ∈ secrets, (tape k secrets).secret j = s.text := by
  refine ⟨secrets.getD j (secrets.headD .login), ?_, rfl⟩
  cases secrets with
  | nil => exact absurd rfl h
  | cons a l =>
      rw [List.getD_eq_getElem?_getD]
      cases hj : (a :: l)[(j : Nat)]? with
      | none => exact List.mem_cons_self
      | some x => exact List.mem_of_getElem? hj

theorem requests_pairwise (k : Nat) (steps : List Step) (h : Apart steps) :
    (requests k steps).Pairwise (contract platform).compat := by
  induction steps generalizing k with
  | nil => exact .nil
  | cons s steps ih =>
      obtain ⟨hdraws, hnodup⟩ := h
      rw [List.flatMap_cons, List.nodup_append] at hnodup
      refine .cons (fun c hc => ?_)
        (ih _ ⟨fun x hx => hdraws x (List.mem_cons_of_mem _ hx), hnodup.2.1⟩)
      obtain ⟨x, hx, n, hn, rfl⟩ := mem_requests hc
      refine apart_of_draws _ (fun i j => ?_) fun i j e => ?_
      · have : 2 * k + (i : Nat) < 2 * n + (j : Nat) := by omega
        exact Nat.ne_of_lt this
      · obtain ⟨a, ha, hia⟩ := secret_mem (k := k) (hdraws s List.mem_cons_self) i
        obtain ⟨b, hb, hjb⟩ := secret_mem (k := n) (hdraws x (List.mem_cons_of_mem _ hx)) j
        have hab : a = b := Secret.hash_inj (by
          rw [← hia, ← hjb]
          exact e)
        exact hnodup.2.2 a ha b (List.mem_flatMap.mpr ⟨x, hx, hb⟩) hab

/-- **A run by hand is a run of the machine.** -/
theorem reachable {steps : List Step} (h : Apart steps) : Reachable platform (machine steps) :=
  (Sql.reachable_sequential (requests_pairwise _ _ h)).1

theorem requests_append (k : Nat) (steps more : List Step) :
    requests k (steps ++ more) = requests k steps ++ requests (k + steps.length) more := by
  induction steps generalizing k with
  | nil => rfl
  | cons s steps ih =>
      rw [List.cons_append, requests, ih, requests, List.cons_append, List.length_cons,
        Nat.add_right_comm, Nat.add_assoc k]

/-- More steps lead to a later machine. -/
theorem later {steps more : List Step} (h : Apart (steps ++ more)) :
    Sql.Steps (program platform) (contract platform).compat (machine steps)
      (machine (steps ++ more)) := by
  have hpairwise := requests_pairwise 0 _ h
  rw [machine, machine, requests_append] at *
  exact Sql.steps_sequential hpairwise

/-- The machine after calls that start together and take turns. -/
def overlapped (steps : List Step) (turns : List Nat) : Sql.Machine schema Request Reply :=
  turns.foldl Sql.Machine.turn
    ((requests 0 steps).foldl (.begin (program platform)) (.init Sql.Db.empty))

theorem reachable_overlapped {steps : List Step} (h : Apart steps) (turns : List Nat) :
    Reachable platform (overlapped steps turns) :=
  Sql.reachable_turns (requests_pairwise _ _ h) turns

end Sample

end Eri
