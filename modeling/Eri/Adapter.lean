/-
  File:      Eri/Adapter.lean
  Subject:   Logins at Google (src/google.rs, `GoogleAdapter::exchange_code` and
             `verify_id_token`), any number of them interleaved.

  An exchange takes one of eight permits for its token request and gives it up with the response;
  then it asks for the key of the ID token, which may need a fetch with a permit of its own, and
  opens the token with it. The keys are those of `Keyring`, and every step of an exchange makes
  the steps of its key call.

  * `beginExchange`, `readAnswer`, `openToken` -- the three parts of an exchange between its waits;
  * `Adapter`, `Adapter.Step`, `Adapter.Reachable` -- exchanges, their steps and runs;
  * `Adapter.step_keyring` -- the keys of a run are those of a run of the keyring;
  * `Exchange.Story` -- what happened to an exchange so far;
  * **`Adapter.exchange_verified`** -- what stands behind an identity, and what the permits are.
-/
import Eri.Challenges
import Eri.Google
import Eri.GoogleClaims

namespace Eri

namespace Google

open Web (GoogleAdapter validOpaque)

/-! ## 1. One exchange -/

def maxTokenResponse : Nat := 64 * 1024

/-- The permits of `Semaphore::new(8)`. -/
def maxRequests : Nat := 8

/-- `GoogleError`, as far as `exchange_code` returns it. -/
inductive ExchangeError where
  | secretUnavailable
  | invalidAuthorizationInput
  | tokenExchange
  | keysUnavailable
  | invalidIdentityToken
  deriving DecidableEq

/-- `serde_json` for token responses, and `jsonwebtoken`: the header of a token, the JSON of its
    first segment, and the claims of a token that was signed under a key with RS256 and is not
    too early at a time. -/
structure TokenCrates extends JwksCrates where
  tokenResponse : List UInt8 → Option String
  decodeHeader : String → Option JwtHeader
  firstSegment : String → Option Json
  decode : String → RsaPublicKey → Int64 → Option Claims

/-- The arguments of `exchange_code`. -/
structure LoginCode where
  code : String
  verifier : String
  nonce : String
  deriving DecidableEq

abbrev TokenForm : Type := List (String × String)

/-- The form of a token request. -/
def tokenForm (g : GoogleAdapter) (secret : String) (x : LoginCode) : TokenForm :=
  [("code", x.code), ("client_id", g.clientId), ("client_secret", secret),
   ("redirect_uri", g.callback), ("grant_type", "authorization_code"),
   ("code_verifier", x.verifier)]

/-- `exchange_code`, up to its request. -/
def beginExchange (g : GoogleAdapter) (secret : Option String) (permits : Nat) (x : LoginCode) :
    Except ExchangeError TokenForm :=
  if !validOpaque x.code || !validPkceVerifier x.verifier || !validOpaque x.nonce then
    .error .invalidAuthorizationInput
  else
    match secret.filter fun v => !v.isEmpty with
    | none => .error .secretUnavailable
    | some s => if permits = 0 then .error .tokenExchange else .ok (tokenForm g s x)

section Answer

variable (C : TokenCrates)

/-- The ID token of a response. -/
def readIdToken (response : Option JwksResponse) : Except ExchangeError String :=
  match response with
  | none => .error .tokenExchange
  | some r =>
      if r.status ≠ 200 then .error .tokenExchange
      else
        match (boundedBody r maxTokenResponse).bind C.tokenResponse with
        | none => .error .tokenExchange
        | some token => .ok token

/-- `google::has_unsupported_crit`. -/
def unsupportedCrit (token : String) : Bool :=
  match C.firstSegment token with
  | none => true
  | some (.obj ms) =>
      match (ms.reverse.find? (·.1 = "crit")).map Prod.snd with
      | some (.arr items) => !items.isEmpty
      | some _ => true
      | none => false
  | some _ => false

/-- `verify_id_token`, up to the key: the id of the key. -/
def readKid (token nonce : String) : Except ExchangeError String :=
  if maxTokenResponse < token.utf8ByteSize || !validOpaque nonce then .error .invalidIdentityToken
  else
    match C.decodeHeader token with
    | none => .error .invalidIdentityToken
    | some header =>
        if header.alg ≠ .rs256 ∨ unsupportedCrit C token ∨ header.typ.any (· != "JWT") then
          .error .invalidIdentityToken
        else
          match header.kid with
          | none => .error .invalidIdentityToken
          | some kid =>
              if kid.isEmpty ∨ 128 < kid.utf8ByteSize then .error .invalidIdentityToken
              else .ok kid

/-- An exchange, from its response to its key. -/
def readAnswer (response : Option JwksResponse) (nonce : String) :
    Except ExchangeError (String × String) := do
  let token ← readIdToken C response
  let kid ← readKid C token nonce
  pure (token, kid)

/-- `verify_id_token`, with the key; it decodes at `decoded` and checks at `now`. -/
def openToken (g : GoogleAdapter) (token nonce : String) (key : RsaPublicKey)
    (decoded now : Int64) : Except ExchangeError VerifiedGoogleIdentity :=
  match C.decode token key decoded with
  | none => .error .invalidIdentityToken
  | some claims =>
      match validateClaims claims g.clientId nonce now with
      | none => .error .invalidIdentityToken
      | some identity => .ok identity

end Answer

/-- The arguments pass, and the form is theirs. -/
structure LoginCode.Asked (g : GoogleAdapter) (x : LoginCode) (form : TokenForm) : Prop where
  code : validOpaque x.code = true
  verifier : validPkceVerifier x.verifier = true
  nonce : validOpaque x.nonce = true
  form : ∃ secret, secret ≠ "" ∧ form = tokenForm g secret x

theorem beginExchange_ok {g : GoogleAdapter} {secret : Option String} {permits : Nat}
    {x : LoginCode} {form : TokenForm} (h : beginExchange g secret permits x = .ok form) :
    0 < permits ∧ x.Asked g form := by
  unfold beginExchange at h
  obtain ⟨hvalid, h⟩ := ite_ok h
  simp only [Bool.or_eq_true, Bool.not_eq_true', not_or, Bool.not_eq_false] at hvalid
  obtain ⟨⟨hcode, hverifier⟩, hnonce⟩ := hvalid
  split at h
  · cases h
  rename_i s hs
  obtain ⟨hpermits, h⟩ := ite_ok h
  have hne := (Option.filter_eq_some_iff.mp hs).2
  simp only [Bool.not_eq_true', ← Bool.not_eq_true, String.isEmpty_iff] at hne
  exact ⟨Nat.pos_of_ne_zero hpermits, hcode, hverifier, hnonce, s, hne, (Except.ok.inj h).symm⟩

/-! ## 2. Exchanges and their steps -/

/-- An exchange waits for its response, or with its token for its key, which is call `n` of the
    keyring; or it is over. -/
inductive ExchangePhase where
  | asking
  | keyed (token kid : String) (n : Nat)
  | ended (r : Except ExchangeError VerifiedGoogleIdentity)
  | dropped

inductive ExchangeEvent where
  | sent (form : TokenForm)
  | received (response : Option JwksResponse)
  | opened (kid : String) (key : RsaPublicKey) (decoded now : Int64)

/-- The token that waits for its key, the id of the key and its key call. -/
def ExchangePhase.key : ExchangePhase → Option (String × String × Nat)
  | .keyed token kid n => some (token, kid, n)
  | .asking | .ended _ | .dropped => none

/-- An exchange, and what happened to it when. -/
structure Exchange where
  code : LoginCode
  phase : ExchangePhase
  history : List (Instant × ExchangeEvent)

/-- It has a permit of its own. -/
def Exchange.asks (x : Exchange) : Bool :=
  match x.phase with
  | .asking => true
  | .keyed .. | .ended _ | .dropped => false

def Exchange.to (x : Exchange) (now : Instant) (es : List ExchangeEvent) (p : ExchangePhase) :
    Exchange :=
  ⟨x.code, p, x.history ++ es.map fun e => (now, e)⟩

structure Adapter where
  keyring : Keyring
  permits : Nat
  exchanges : List Exchange

/-- `key`, when it begins to fetch. -/
def Keyring.attempting (F : Keyring) (n : Nat) (kid : String) : Keyring :=
  { (F.move n kid .fetching).record [.attempted n kid] with
    holder := some n, cache := { F.cache with lastAttempt := some F.now } }

namespace Adapter

/-- `GoogleAdapter::with_parts`. -/
def new (now : Instant) : Adapter := ⟨.new now, maxRequests, []⟩

def move (A : Adapter) (i : Nat) (x : Exchange) : Adapter :=
  { A with exchanges := A.exchanges.set i x }

variable (C : TokenCrates) (g : GoogleAdapter)

/-- **One step**: time passes, an exchange begins, or one goes on. It waits for its response, for
    the lock of the keys and for the response with the keys, and can be dropped at each. -/
inductive Step : Adapter → Adapter → Prop where
  | tick (A : Adapter) (later : Instant) (h : A.keyring.now ≤ later) :
      Step A { A with keyring := { A.keyring with now := later } }
  | refuse (A : Adapter) (x : LoginCode) (secret : Option String) (e : ExchangeError)
      (h : beginExchange g secret A.permits x = .error e) :
      Step A { A with exchanges := A.exchanges ++ [⟨x, .ended (.error e), []⟩] }
  | send (A : Adapter) (x : LoginCode) (secret : Option String) (form : TokenForm)
      (h : beginExchange g secret A.permits x = .ok form) :
      Step A { A with
        permits := A.permits - 1
        exchanges := A.exchanges ++ [⟨x, .asking, [(A.keyring.now, .sent form)]⟩] }
  | reject (A : Adapter) (i : Nat) (x : Exchange) (response : Option JwksResponse)
      (e : ExchangeError) (hi : A.exchanges[i]? = some x) (hx : x.phase = .asking)
      (h : readAnswer C response x.code.nonce = .error e) :
      Step A { A.move i (x.to A.keyring.now [.received response] (.ended (.error e))) with
        permits := A.permits + 1 }
  | accept (A : Adapter) (i : Nat) (x : Exchange) (response : Option JwksResponse)
      (token kid : String) (hi : A.exchanges[i]? = some x) (hx : x.phase = .asking)
      (h : readAnswer C response x.code.nonce = .ok (token, kid)) :
      Step A { A.move i (x.to A.keyring.now [.received response]
          (.keyed token kid A.keyring.calls.length)) with
        permits := A.permits + 1
        keyring := { A.keyring with calls := A.keyring.calls ++ [⟨kid, .waiting⟩] } }
  | serve (A : Adapter) (i : Nat) (x : Exchange) (token kid : String) (n : Nat)
      (key : RsaPublicKey) (decoded now : Int64) (hi : A.exchanges[i]? = some x)
      (hx : x.phase = .keyed token kid n) (hn : A.keyring.At n kid .waiting)
      (hfree : A.keyring.holder = none)
      (hstart : A.keyring.cache.start A.keyring.now kid = .found key) :
      Step A { A.move i (x.to A.keyring.now [.opened kid key decoded now]
          (.ended (openToken C g token x.code.nonce key decoded now))) with
        keyring := (A.keyring.move n kid .ended).record [.served n kid key] }
  | throttle (A : Adapter) (i : Nat) (x : Exchange) (token kid : String) (n : Nat)
      (hi : A.exchanges[i]? = some x) (hx : x.phase = .keyed token kid n)
      (hn : A.keyring.At n kid .waiting) (hfree : A.keyring.holder = none)
      (hstart : A.keyring.cache.start A.keyring.now kid = .throttled) :
      Step A { A.move i (x.to A.keyring.now [] (.ended (.error .keysUnavailable))) with
        keyring := (A.keyring.move n kid .ended).record [.throttled n kid] }
  | attempt (A : Adapter) (i : Nat) (x : Exchange) (token kid : String) (n m : Nat)
      (hi : A.exchanges[i]? = some x) (hx : x.phase = .keyed token kid n)
      (hn : A.keyring.At n kid .waiting) (hfree : A.keyring.holder = none)
      (hstart : A.keyring.cache.start A.keyring.now kid = .fetch) (hpermits : A.permits = m + 1) :
      Step A { A with permits := m, keyring := A.keyring.attempting n kid }
  | exhausted (A : Adapter) (i : Nat) (x : Exchange) (token kid : String) (n : Nat)
      (hi : A.exchanges[i]? = some x) (hx : x.phase = .keyed token kid n)
      (hn : A.keyring.At n kid .waiting) (hfree : A.keyring.holder = none)
      (hstart : A.keyring.cache.start A.keyring.now kid = .fetch) (hpermits : A.permits = 0) :
      Step A { A.move i (x.to A.keyring.now [] (.ended (.error .keysUnavailable))) with
        keyring := { ((A.keyring.attempting n kid).move n kid .ended).record [.failed n] with
          holder := none } }
  | succeed (A : Adapter) (i : Nat) (x : Exchange) (token kid : String) (n : Nat)
      (response : Option JwksResponse) (keys : Keys) (freshness : Nat) (key : RsaPublicKey)
      (decoded now : Int64) (hi : A.exchanges[i]? = some x) (hx : x.phase = .keyed token kid n)
      (hn : A.keyring.At n kid .fetching)
      (hfetch : fetchKeys C.toJwksCrates true response = .ok (keys, freshness))
      (hkey : keys.lookup kid = some key) :
      Step A { A.move i (x.to A.keyring.now [.opened kid key decoded now]
          (.ended (openToken C g token x.code.nonce key decoded now))) with
        permits := A.permits + 1
        keyring := { (A.keyring.move n kid .ended).record
            [.fetched n keys freshness, Keyring.answer n kid keys] with
          holder := none, cache := A.keyring.cache.refresh keys freshness A.keyring.now } }
  | miss (A : Adapter) (i : Nat) (x : Exchange) (token kid : String) (n : Nat)
      (response : Option JwksResponse) (keys : Keys) (freshness : Nat)
      (hi : A.exchanges[i]? = some x) (hx : x.phase = .keyed token kid n)
      (hn : A.keyring.At n kid .fetching)
      (hfetch : fetchKeys C.toJwksCrates true response = .ok (keys, freshness))
      (hkey : keys.lookup kid = none) :
      Step A { A.move i (x.to A.keyring.now [] (.ended (.error .keysUnavailable))) with
        permits := A.permits + 1
        keyring := { (A.keyring.move n kid .ended).record
            [.fetched n keys freshness, Keyring.answer n kid keys] with
          holder := none, cache := A.keyring.cache.refresh keys freshness A.keyring.now } }
  | fail (A : Adapter) (i : Nat) (x : Exchange) (token kid : String) (n : Nat)
      (response : Option JwksResponse) (e : GoogleError) (hi : A.exchanges[i]? = some x)
      (hx : x.phase = .keyed token kid n) (hn : A.keyring.At n kid .fetching)
      (hfetch : fetchKeys C.toJwksCrates true response = .error e) :
      Step A { A.move i (x.to A.keyring.now [] (.ended (.error .keysUnavailable))) with
        permits := A.permits + 1
        keyring := { (A.keyring.move n kid .ended).record [.failed n] with holder := none } }
  | dropAsking (A : Adapter) (i : Nat) (x : Exchange) (hi : A.exchanges[i]? = some x)
      (hx : x.phase = .asking) :
      Step A { A.move i (x.to A.keyring.now [] .dropped) with permits := A.permits + 1 }
  | dropWaiting (A : Adapter) (i : Nat) (x : Exchange) (token kid : String) (n : Nat)
      (hi : A.exchanges[i]? = some x) (hx : x.phase = .keyed token kid n)
      (hn : A.keyring.At n kid .waiting) :
      Step A { A.move i (x.to A.keyring.now [] .dropped) with
        keyring := A.keyring.move n kid .ended }
  | dropFetching (A : Adapter) (i : Nat) (x : Exchange) (token kid : String) (n : Nat)
      (hi : A.exchanges[i]? = some x) (hx : x.phase = .keyed token kid n)
      (hn : A.keyring.At n kid .fetching) :
      Step A { A.move i (x.to A.keyring.now [] .dropped) with
        permits := A.permits + 1
        keyring := { (A.keyring.move n kid .ended).record [.dropped n] with holder := none } }

/-- The states of an adapter from its creation. -/
inductive Reachable : Adapter → Prop where
  | new (now : Instant) : Reachable (new now)
  | step {A A' : Adapter} (h : Reachable A) (hs : Step C g A A') : Reachable A'

variable {C} {g} {A A' : Adapter}

/-! ## 3. Keys -/

theorem attempting_step {F : Keyring} {n : Nat} {kid : String} (hn : F.At n kid .waiting)
    (hfree : F.holder = none) (hstart : F.cache.start F.now kid = .fetch) :
    Keyring.Step C.toJwksCrates F (F.attempting n kid) := .attempt F n kid hn hfree hstart

/-- **The keys of a step are those of steps of the keyring.** -/
theorem step_keyring (h : Step C g A A') :
    Relation.ReflTransGen (Keyring.Step C.toJwksCrates) A.keyring A'.keyring := by
  cases h with
  | tick later h => exact .single (.tick _ later h)
  | refuse | send | reject | dropAsking => exact .refl
  | accept i x response token kid hi hx h => exact .single (.call _ kid)
  | serve i x token kid n key decoded now hi hx hn hfree hstart =>
      exact .single (.serve _ n kid key hn hfree hstart)
  | throttle i x token kid n hi hx hn hfree hstart =>
      exact .single (.throttle _ n kid hn hfree hstart)
  | attempt i x token kid n m hi hx hn hfree hstart hpermits =>
      exact .single (attempting_step hn hfree hstart)
  | exhausted i x token kid n hi hx hn hfree hstart hpermits =>
      -- a fetch without a permit fails at once
      refine .tail (.single (attempting_step hn hfree hstart)) ?_
      exact .fail _ n kid false none .keysUnavailable (Keyring.At.moved hn) rfl
  | succeed i x token kid n response keys freshness key decoded now hi hx hn hfetch hkey =>
      exact .single (.succeed _ n kid true response keys freshness hn hfetch)
  | miss i x token kid n response keys freshness hi hx hn hfetch hkey =>
      exact .single (.succeed _ n kid true response keys freshness hn hfetch)
  | fail i x token kid n response e hi hx hn hfetch =>
      exact .single (.fail _ n kid true response e hn hfetch)
  | dropWaiting i x token kid n hi hx hn => exact .single (.leave _ n kid hn)
  | dropFetching i x token kid n hi hx hn => exact .single (.drop _ n kid hn)

/-- **The keys of a run are those of a run of the keyring.** -/
theorem Reachable.keyring (h : Reachable C g A) :
    Keyring.Reachable C.toJwksCrates A.keyring := by
  induction h with
  | new now => exact .new now
  | @step A A' _ hs ih =>
      have hrun := step_keyring hs
      generalize A'.keyring = F' at hrun
      induction hrun with
      | refl => exact ih
      | tail _ hstep ih => exact ih.step hstep

/-! ## 4. Permits -/

/-- The requests to Google that are under way. -/
def underWay (A : Adapter) : Nat :=
  A.exchanges.countP Exchange.asks + A.keyring.holder.isSome.toNat

/-- An exchange that waits for its key has no permit of its own. -/
theorem asks_keyed {x : Exchange} {token kid : String} {n : Nat}
    (hx : x.phase = .keyed token kid n) : x.asks = false := by
  unfold Exchange.asks
  rw [hx]

theorem asks_asking {x : Exchange} (hx : x.phase = .asking) : x.asks = true := by
  unfold Exchange.asks
  rw [hx]

/-- What an exchange gives up is there again. -/
theorem balanced_turn {i : Nat} {x x' : Exchange} (h : A.permits + A.underWay = maxRequests)
    (hi : A.exchanges[i]? = some x) (hexchanges : A'.exchanges = A.exchanges.set i x')
    (hsum : A'.permits + x'.asks.toNat + A'.keyring.holder.isSome.toNat =
      A.permits + x.asks.toNat + A.keyring.holder.isSome.toNat) :
    A'.permits + A'.underWay = maxRequests := by
  obtain ⟨hlt, he⟩ := List.getElem?_eq_some_iff.mp hi
  have hle : (if x.asks = true then 1 else 0) ≤ A.exchanges.countP Exchange.asks := by
    split
    · exact List.countP_pos_iff.mpr ⟨x, he ▸ List.getElem_mem hlt, ‹_›⟩
    · exact Nat.zero_le _
  unfold underWay at h ⊢
  rw [hexchanges, List.countP_set hlt, he]
  cases hx : x.asks <;> cases hx' : x'.asks <;>
    simp only [hx, hx', Bool.toNat_true, Bool.toNat_false, Bool.false_eq_true, if_true,
      if_false] at hsum hle ⊢ <;>
    omega

/-- **Permits are neither lost nor made.** -/
theorem balanced_step (hlocked : Keyring.Locked A.keyring)
    (h : A.permits + A.underWay = maxRequests) (hs : Step C g A A') :
    A'.permits + A'.underWay = maxRequests := by
  have hheld : ∀ {n : Nat} {kid : String}, A.keyring.At n kid .fetching →
      A.keyring.holder.isSome.toNat = 1 := by
    intro n kid hn
    rw [hlocked n kid hn]
    rfl
  cases hs with
  | tick later hlater => exact h
  | refuse x secret e hadmit =>
      unfold underWay at h ⊢
      rw [List.countP_append]
      exact h
  | send x secret form hadmit =>
      have hpositive := (beginExchange_ok hadmit).1
      unfold underWay at h ⊢
      rw [List.countP_append]
      show A.permits - 1 + (A.exchanges.countP Exchange.asks + 1 +
        A.keyring.holder.isSome.toNat) = maxRequests
      omega
  | reject i x response e hi hx hread =>
      refine balanced_turn h hi rfl ?_
      rw [asks_asking hx]
      rfl
  | accept i x response token kid hi hx hread =>
      refine balanced_turn h hi rfl ?_
      rw [asks_asking hx]
      rfl
  | serve i x token kid n key decoded now hi hx hn hfree hstart =>
      refine balanced_turn h hi rfl ?_
      rw [asks_keyed hx]
      rfl
  | throttle i x token kid n hi hx hn hfree hstart =>
      refine balanced_turn h hi rfl ?_
      rw [asks_keyed hx]
      rfl
  | attempt i x token kid n m hi hx hn hfree hstart hpermits =>
      unfold underWay at h ⊢
      rw [hfree, hpermits] at h
      show m + (A.exchanges.countP Exchange.asks + 1) = maxRequests
      have hfreed : m + 1 + (A.exchanges.countP Exchange.asks + 0) = maxRequests := h
      omega
  | exhausted i x token kid n hi hx hn hfree hstart hpermits =>
      refine balanced_turn h hi rfl ?_
      rw [asks_keyed hx, hfree]
      rfl
  | succeed i x token kid n response keys freshness key decoded now hi hx hn hfetch hkey =>
      refine balanced_turn h hi rfl ?_
      rw [asks_keyed hx, hheld hn]
      rfl
  | miss i x token kid n response keys freshness hi hx hn hfetch hkey =>
      refine balanced_turn h hi rfl ?_
      rw [asks_keyed hx, hheld hn]
      rfl
  | fail i x token kid n response e hi hx hn hfetch =>
      refine balanced_turn h hi rfl ?_
      rw [asks_keyed hx, hheld hn]
      rfl
  | dropAsking i x hi hx =>
      refine balanced_turn h hi rfl ?_
      rw [asks_asking hx]
      rfl
  | dropWaiting i x token kid n hi hx hn =>
      refine balanced_turn h hi rfl ?_
      rw [asks_keyed hx]
      rfl
  | dropFetching i x token kid n hi hx hn =>
      refine balanced_turn h hi rfl ?_
      rw [asks_keyed hx, hheld hn]
      rfl

/-- **The permits of a run.** -/
theorem balanced (h : Reachable C g A) : A.permits + A.underWay = maxRequests := by
  induction h with
  | new now => rfl
  | step hA hs ih => exact balanced_step (Keyring.reachable_locked hA.keyring) ih hs

/-! ## 5. Exchanges and key calls -/

/-- Exchange `i` waits for the key of its token, which is key call `n`. -/
def KeyedAt (A : Adapter) (i : Nat) (token kid : String) (n : Nat) : Prop :=
  ∃ x, A.exchanges[i]? = some x ∧ x.phase = .keyed token kid n

/-- **Key calls that are under way belong to exchanges**, each to one; one of them has the lock. -/
structure Linked (A : Adapter) : Prop where
  calls : ∀ i token kid n, A.KeyedAt i token kid n →
    A.keyring.At n kid .waiting ∨ A.keyring.At n kid .fetching
  single : ∀ i j token token' kid kid' n, A.KeyedAt i token kid n → A.KeyedAt j token' kid' n →
    i = j
  lock : ∀ n, A.keyring.holder = some n → ∃ i token kid, A.KeyedAt i token kid n ∧
    A.keyring.At n kid .fetching

section Linked

variable {i : Nat} {x x' : Exchange} {token kid : String} {n : Nat}

/-- An exchange that was not waiting for a key, and still is not. -/
theorem keyedAt_set (hi : A.exchanges[i]? = some x) (hx : x.phase.key = none)
    (hx' : x'.phase.key = none) (hexchanges : A'.exchanges = A.exchanges.set i x')
    (j : Nat) (token kid : String) (n : Nat) :
    A'.KeyedAt j token kid n ↔ A.KeyedAt j token kid n := by
  unfold KeyedAt
  rw [hexchanges]
  by_cases hj : i = j
  · subst hj
    rw [List.getElem?_set_self (List.getElem?_eq_some_iff.mp hi).1, hi]
    constructor
    · rintro ⟨y, e, hy⟩
      obtain rfl := Option.some.inj e
      exact absurd hx' (by rw [hy]; exact nofun)
    · rintro ⟨y, e, hy⟩
      obtain rfl := Option.some.inj e
      exact absurd hx (by rw [hy]; exact nofun)
  · rw [List.getElem?_set_ne hj]

/-- An exchange that begins. -/
theorem keyedAt_append (hx' : x'.phase.key = none)
    (hexchanges : A'.exchanges = A.exchanges ++ [x']) (j : Nat) (token kid : String) (n : Nat) :
    A'.KeyedAt j token kid n ↔ A.KeyedAt j token kid n := by
  unfold KeyedAt
  rw [hexchanges]
  constructor
  · rintro ⟨y, e, hy⟩
    rw [List.getElem?_append] at e
    split at e
    · exact ⟨y, e, hy⟩
    · obtain rfl := List.mem_singleton.mp (List.mem_of_getElem? e)
      exact absurd hx' (by rw [hy]; exact nofun)
  · rintro ⟨y, e, hy⟩
    exact ⟨y, (List.getElem?_append_left (List.getElem?_eq_some_iff.mp e).1).trans e, hy⟩

/-- No exchange begins or stops to wait for a key. -/
theorem Linked.keep (h : Linked A)
    (hkeyed : ∀ j token kid n, A'.KeyedAt j token kid n ↔ A.KeyedAt j token kid n)
    (hkeyring : A'.keyring = A.keyring) : Linked A' where
  calls j token kid n hj := hkeyring ▸ h.calls j token kid n ((hkeyed ..).mp hj)
  single j j' token token' kid kid' n hj hj' :=
    h.single j j' token token' kid kid' n ((hkeyed ..).mp hj) ((hkeyed ..).mp hj')
  lock n hn := by
    rw [hkeyring] at hn ⊢
    obtain ⟨j, token, kid, hj, hat⟩ := h.lock n hn
    exact ⟨j, token, kid, (hkeyed ..).mpr hj, hat⟩

/-- An exchange is done with its key call. -/
theorem Linked.done (h : Linked A) (hi : A.exchanges[i]? = some x)
    (hx : x.phase = .keyed token kid n) (hx' : x'.phase.key = none)
    (hexchanges : A'.exchanges = A.exchanges.set i x')
    (hcalls : ∀ m kid p, m ≠ n → A.keyring.At m kid p → A'.keyring.At m kid p)
    (hlock : ∀ m, A'.keyring.holder = some m → A.keyring.holder = some m ∧ m ≠ n) : Linked A' := by
  have hkeyed : ∀ j token' kid' m, A'.KeyedAt j token' kid' m ↔
      A.KeyedAt j token' kid' m ∧ j ≠ i := by
    intro j token' kid' m
    unfold KeyedAt
    rw [hexchanges]
    by_cases hj : i = j
    · subst hj
      rw [List.getElem?_set_self (List.getElem?_eq_some_iff.mp hi).1]
      refine iff_of_false ?_ fun hne => hne.2 rfl
      rintro ⟨y, e, hy⟩
      obtain rfl := Option.some.inj e
      rw [hy] at hx'
      cases hx'
    · rw [List.getElem?_set_ne hj, and_iff_left (Ne.symm hj)]
  -- the call is that of no other exchange
  have hother : ∀ {j token' kid' m}, A.KeyedAt j token' kid' m → j ≠ i → m ≠ n := by
    rintro j token' kid' m hj hne rfl
    exact hne (h.single j i token' token kid' kid m hj ⟨x, hi, hx⟩)
  exact
    { calls := fun j token' kid' m hj => by
        obtain ⟨hj, hne⟩ := (hkeyed ..).mp hj
        rcases h.calls j token' kid' m hj with hat | hat
        · exact Or.inl (hcalls _ _ _ (hother hj hne) hat)
        · exact Or.inr (hcalls _ _ _ (hother hj hne) hat)
      single := fun j j' t t' k k' m hj hj' =>
        h.single j j' t t' k k' m ((hkeyed ..).mp hj).1 ((hkeyed ..).mp hj').1
      lock := fun m hm => by
        obtain ⟨hm, hne⟩ := hlock m hm
        obtain ⟨j, t, k, hj, hat⟩ := h.lock m hm
        refine ⟨j, t, k, (hkeyed ..).mpr ⟨hj, ?_⟩, hcalls _ _ _ hne hat⟩
        rintro rfl
        obtain ⟨y, hy, hyphase⟩ := hj
        obtain rfl := Option.some.inj (hi.symm.trans hy)
        cases hx.symm.trans hyphase
        exact hne rfl }

theorem linked_step (h : Linked A) (hs : Step C g A A') : Linked A' := by
  have hasking : ∀ {x : Exchange}, x.phase = .asking → x.phase.key = none := by
    intro x hx
    rw [hx]
    rfl
  have hmoved : ∀ {n m : Nat} {kid kid' : String} {p q : KeyPhase}, m ≠ n →
      A.keyring.At m kid' p → (A.keyring.move n kid q).At m kid' p :=
    fun hne hat => Keyring.at_other hat hne
  cases hs with
  | tick later hlater =>
      exact { calls := h.calls, single := h.single, lock := h.lock }
  | refuse x secret e hadmit => exact h.keep (keyedAt_append rfl rfl) rfl
  | send x secret form hadmit => exact h.keep (keyedAt_append rfl rfl) rfl
  | reject i x response e hi hx hread =>
      exact h.keep (keyedAt_set hi (hasking hx) rfl rfl) rfl
  | dropAsking i x hi hx => exact h.keep (keyedAt_set hi (hasking hx) rfl rfl) rfl
  | serve i x token kid n key decoded now hi hx hn hfree hstart =>
      exact h.done hi hx rfl rfl (fun _ _ _ hne hat => hmoved hne hat)
        fun m hm => nomatch hfree.symm.trans hm
  | throttle i x token kid n hi hx hn hfree hstart =>
      exact h.done hi hx rfl rfl (fun _ _ _ hne hat => hmoved hne hat)
        fun m hm => nomatch hfree.symm.trans hm
  | exhausted i x token kid n hi hx hn hfree hstart hpermits =>
      exact h.done hi hx rfl rfl (fun _ _ _ hne hat => Keyring.at_other (hmoved hne hat) hne)
        nofun
  | succeed i x token kid n response keys freshness key decoded now hi hx hn hfetch hkey =>
      exact h.done hi hx rfl rfl (fun _ _ _ hne hat => hmoved hne hat) nofun
  | miss i x token kid n response keys freshness hi hx hn hfetch hkey =>
      exact h.done hi hx rfl rfl (fun _ _ _ hne hat => hmoved hne hat) nofun
  | fail i x token kid n response e hi hx hn hfetch =>
      exact h.done hi hx rfl rfl (fun _ _ _ hne hat => hmoved hne hat) nofun
  | dropFetching i x token kid n hi hx hn =>
      exact h.done hi hx rfl rfl (fun _ _ _ hne hat => hmoved hne hat) nofun
  | dropWaiting i x token kid n hi hx hn =>
      refine h.done hi hx rfl rfl (fun _ _ _ hne hat => hmoved hne hat) fun m hm => ⟨hm, ?_⟩
      rintro rfl
      obtain ⟨_, _, _, _, hat⟩ := h.lock m hm
      exact nomatch (hn.same hat).2
  | attempt i x token kid n m hi hx hn hfree hstart hpermits =>
      have hat : ∀ {j kid' p}, A.keyring.At j kid' p → j ≠ n →
          (A.keyring.attempting n kid).At j kid' p := fun hat hne => hmoved hne hat
      have hfetching : (A.keyring.attempting n kid).At n kid .fetching := Keyring.At.moved hn
      exact
        { calls := fun j token' kid' k hj => by
            by_cases hk : k = n
            · subst hk
              rcases h.calls j token' kid' k hj with hj | hj
              · obtain ⟨rfl, -⟩ := hj.same hn
                exact Or.inr hfetching
              · exact nomatch (hj.same hn).2
            · exact (h.calls j token' kid' k hj).imp (hat · hk) (hat · hk)
          single := h.single
          lock := fun k hk => by
            obtain rfl : n = k := Option.some.inj hk
            exact ⟨i, token, kid, ⟨x, hi, hx⟩, hfetching⟩ }
  | accept i x response token kid hi hx hread =>
      have hlt : ∀ {m kid' p}, A.keyring.At m kid' p → m < A.keyring.calls.length :=
        fun hat => (List.getElem?_eq_some_iff.mp hat).1
      have hat : ∀ {m kid' p}, A.keyring.At m kid' p →
          Keyring.At { A.keyring with calls := A.keyring.calls ++ [⟨kid, .waiting⟩] } m kid' p :=
        fun hat => (List.getElem?_append_left (hlt hat)).trans hat
      have hnew : ∀ {j token' kid' m}, Adapter.KeyedAt
          { A.move i (x.to A.keyring.now [.received response]
              (.keyed token kid A.keyring.calls.length)) with
            permits := A.permits + 1
            keyring := { A.keyring with calls := A.keyring.calls ++ [⟨kid, .waiting⟩] } }
          j token' kid' m →
          (j = i ∧ kid' = kid ∧ m = A.keyring.calls.length) ∨
            (j ≠ i ∧ A.KeyedAt j token' kid' m) := by
        rintro j token' kid' m ⟨y, hy, hyphase⟩
        have hy : (A.exchanges.set i _)[j]? = some y := hy
        by_cases hj : i = j
        · subst hj
          rw [List.getElem?_set_self (List.getElem?_eq_some_iff.mp hi).1] at hy
          obtain rfl := Option.some.inj hy
          cases hyphase
          exact Or.inl ⟨rfl, rfl, rfl⟩
        · rw [List.getElem?_set_ne hj] at hy
          exact Or.inr ⟨Ne.symm hj, y, hy, hyphase⟩
      have hbound : ∀ {j token' kid' m}, A.KeyedAt j token' kid' m → m < A.keyring.calls.length :=
        fun hj => (h.calls _ _ _ _ hj).elim hlt hlt
      exact
        { calls := fun j token' kid' m hj => by
            rcases hnew hj with ⟨_, rfl, rfl⟩ | ⟨_, hj⟩
            · exact Or.inl (List.getElem?_concat_length ..)
            · exact (h.calls j token' kid' m hj).imp hat hat
          single := fun j j' t t' k k' m hj hj' => by
            rcases hnew hj with ⟨ej, _, em⟩ | ⟨_, hold⟩
            · rcases hnew hj' with ⟨ej', _, _⟩ | ⟨_, hold'⟩
              · exact ej.trans ej'.symm
              · exact absurd em (Nat.ne_of_lt (hbound hold'))
            · rcases hnew hj' with ⟨_, _, em⟩ | ⟨_, hold'⟩
              · exact absurd em (Nat.ne_of_lt (hbound hold))
              · exact h.single j j' t t' k k' m hold hold'
          lock := fun m hm => by
            obtain ⟨j, t, k, ⟨y, hy, hyphase⟩, hfetching⟩ := h.lock m hm
            refine ⟨j, t, k, ⟨y, ?_, hyphase⟩, hat hfetching⟩
            have hne : i ≠ j := by
              rintro rfl
              obtain rfl := Option.some.inj (hi.symm.trans hy)
              cases hx.symm.trans hyphase
            exact (List.getElem?_set_ne hne).trans hy }

theorem linked (h : Reachable C g A) : Linked A := by
  induction h with
  | new now =>
      exact
        { calls := fun _ _ _ _ hj => by
            obtain ⟨_, hy, _⟩ := hj
            cases hy
          single := fun _ _ _ _ _ _ _ hj => by
            obtain ⟨_, hy, _⟩ := hj
            cases hy
          lock := nofun }
  | step _ hs ih => exact linked_step ih hs

end Linked

/-! ## 6. What happened to an exchange -/

section Fetches

variable {K : JwksCrates} {F F' : Keyring}

/-- A step of the keyring adds to its trace, and takes time. -/
theorem keyring_grows (hs : Keyring.Step K F F') : F.trace <+: F'.trace ∧ F.now ≤ F'.now := by
  cases hs with
  | tick later h => exact ⟨List.prefix_rfl, h⟩
  | call | leave => exact ⟨List.prefix_rfl, Int.le_refl _⟩
  | _ => exact ⟨List.prefix_append .., Int.le_refl _⟩

/-- A set of keys that was in a response. -/
def Published (K : JwksCrates) (f : Keyring.Fetch) : Prop :=
  ∃ r, fetchKeys K true (some r) = .ok (f.keys, f.freshness)

theorem published_of {permit : Bool} {response : Option JwksResponse} {f : Keyring.Fetch}
    (h : fetchKeys K permit response = .ok (f.keys, f.freshness)) : Published K f := by
  cases permit with
  | false => cases h
  | true =>
      cases response with
      | none => cases h
      | some r => exact ⟨r, h⟩

/-- The most recent fetch of a run is past, and its keys were in a response. -/
theorem fetched_before (hF : Keyring.Reachable K F) {f : Keyring.Fetch}
    (hf : Keyring.lastFetch F.trace = some f) : f.time ≤ F.now ∧ Published K f := by
  induction hF with
  | new now => cases hf
  | @step F F' _ hs ih =>
      -- an event of no fetch leaves the most recent one as it was
      have hkept : ∀ {e : KeyEvent}, Keyring.fetchOf (F.now, e) = none →
          Keyring.lastFetch (F.trace ++ [(F.now, e)]) = some f →
            f.time ≤ F.now ∧ Published K f := by
        intro e he hlast
        rw [Keyring.lastFetch_snoc, he] at hlast
        exact ih hlast
      cases hs with
      | tick later h => exact ⟨Int.le_trans (ih hf).1 h, (ih hf).2⟩
      | call | leave => exact ih hf
      | serve | throttle | attempt | fail | drop => exact hkept rfl hf
      | succeed i kid permit response keys freshness hi hfetch =>
          have hlast : Keyring.lastFetch (F.trace ++ [(F.now, .fetched i keys freshness)] ++
              [(F.now, Keyring.answer i kid keys)]) = some f := by
            rw [List.append_assoc]
            exact hf
          rw [Keyring.lastFetch_snoc, (Keyring.answer_neither ..).1,
            Keyring.lastFetch_snoc] at hlast
          obtain rfl : (⟨F.now, i, keys, freshness⟩ : Keyring.Fetch) = f := Option.some.inj hlast
          exact ⟨Int.le_refl _, published_of hfetch⟩

end Fetches

/-- **What stands behind an identity**: a valid request for the code was answered with an ID
    token; the token was opened with the key of its id, from the most recent set of keys that
    Google published, which was in its time or had just come; and its claims were accepted for
    the client and the nonce. -/
inductive Verified (C : TokenCrates) (g : GoogleAdapter) (T : Trace) (x : Exchange)
    (identity : VerifiedGoogleIdentity) : Prop where
  | token {t₀ t₁ t₂ : Instant} {form : TokenForm} {response : Option JwksResponse}
      {token kid : String} {key : RsaPublicKey} {claims : Claims} {decoded now : Int64}
      {before : Trace} {n : Nat} {f : Keyring.Fetch} (hasked : x.code.Asked g form)
      (hhistory : x.history =
        [(t₀, .sent form), (t₁, .received response), (t₂, .opened kid key decoded now)])
      (htimes : t₀ ≤ t₁ ∧ t₁ ≤ t₂) (hread : readAnswer C response x.code.nonce = .ok (token, kid))
      (htrace : before ++ [(t₂, .served n kid key)] <+: T)
      (hfetch : Keyring.lastFetch before = some f) (hpublished : Published C.toJwksCrates f)
      (hkey : f.keys.lookup kid = some key)
      (hfresh : f.time ≤ t₂ ∧ (t₂ < f.deadline ∨ t₂ = f.time))
      (hdecode : C.decode token key decoded = some claims)
      (hclaims : validateClaims claims g.clientId x.code.nonce now = some identity) :
      Verified C g T x identity

/-- **What happened to an exchange so far**, by where it stands. -/
inductive Story (C : TokenCrates) (g : GoogleAdapter) (T : Trace) (now : Instant) (x : Exchange) :
    Prop where
  | asking {t : Instant} {form : TokenForm} (hphase : x.phase = .asking)
      (hasked : x.code.Asked g form) (hhistory : x.history = [(t, .sent form)]) (ht : t ≤ now) :
      Story C g T now x
  | keyed {t₀ t₁ : Instant} {form : TokenForm} {response : Option JwksResponse}
      {token kid : String} {n : Nat} (hphase : x.phase = .keyed token kid n)
      (hasked : x.code.Asked g form)
      (hhistory : x.history = [(t₀, .sent form), (t₁, .received response)])
      (htimes : t₀ ≤ t₁ ∧ t₁ ≤ now)
      (hread : readAnswer C response x.code.nonce = .ok (token, kid)) :
      Story C g T now x
  | returned {identity : VerifiedGoogleIdentity} (hphase : x.phase = .ended (.ok identity))
      (hverified : Verified C g T x identity) : Story C g T now x
  | failed {e : ExchangeError} (hphase : x.phase = .ended (.error e)) : Story C g T now x
  | dropped (hphase : x.phase = .dropped) : Story C g T now x

section Story

variable {T T' : Trace} {now now' : Instant} {x : Exchange}

theorem Verified.mono {identity : VerifiedGoogleIdentity} (h : Verified C g T x identity)
    (hT : T <+: T') : Verified C g T' x identity := by
  cases h with
  | token hasked hhistory htimes hread htrace hfetch hpublished hkey hfresh hdecode hclaims =>
      exact .token hasked hhistory htimes hread (htrace.trans hT) hfetch hpublished hkey hfresh
        hdecode hclaims

theorem Story.mono (h : Story C g T now x) (hT : T <+: T') (hnow : now ≤ now') :
    Story C g T' now' x := by
  cases h with
  | asking hphase hasked hhistory ht => exact .asking hphase hasked hhistory (Int.le_trans ht hnow)
  | keyed hphase hasked hhistory htimes hread =>
      exact .keyed hphase hasked hhistory ⟨htimes.1, Int.le_trans htimes.2 hnow⟩ hread
  | returned hphase hverified => exact .returned hphase (hverified.mono hT)
  | failed hphase => exact .failed hphase
  | dropped hphase => exact .dropped hphase

/-- An exchange that opens its token with a key of the most recent fetch. -/
theorem story_opened {token kid : String} {n : Nat} {key : RsaPublicKey} {decoded now₀ : Int64}
    {before : Trace} {f : Keyring.Fetch} (h : Story C g T now x)
    (hx : x.phase = .keyed token kid n) (htrace : before ++ [(now, .served n kid key)] <+: T')
    (hfetch : Keyring.lastFetch before = some f) (hpublished : Published C.toJwksCrates f)
    (hkey : f.keys.lookup kid = some key)
    (hfresh : f.time ≤ now ∧ (now < f.deadline ∨ now = f.time)) (now' : Instant) :
    Story C g T' now' (x.to now [.opened kid key decoded now₀]
      (.ended (openToken C g token x.code.nonce key decoded now₀))) := by
  cases h with
  | @keyed t₀ t₁ form response token' kid' n' hphase hasked hhistory htimes hread =>
      cases hx.symm.trans hphase
      cases hopened : openToken C g token x.code.nonce key decoded now₀ with
      | error e => exact .failed (congrArg _ rfl)
      | ok identity =>
          refine .returned rfl ?_
          unfold openToken at hopened
          split at hopened
          · cases hopened
          rename_i claims hdecode
          split at hopened
          · cases hopened
          rename_i accepted hclaims
          cases hopened
          refine .token hasked ?_ htimes hread htrace hfetch hpublished hkey hfresh hdecode hclaims
          show x.history ++ _ = _
          rw [hhistory]
          rfl
  | asking hphase | returned hphase | failed hphase | dropped hphase =>
      cases hx.symm.trans hphase

end Story

/-- Every exchange is as it was, but one. -/
theorem forall_set {P : Exchange → Prop} {l : List Exchange} {i : Nat} {x' : Exchange}
    (h : ∀ x ∈ l, P x) (hx' : P x') : ∀ x ∈ l.set i x', P x := by
  intro x hx
  rcases List.mem_or_eq_of_mem_set hx with hx | rfl
  · exact h x hx
  · exact hx'

theorem forall_append {P : Exchange → Prop} {l : List Exchange} {x' : Exchange}
    (h : ∀ x ∈ l, P x) (hx' : P x') : ∀ x ∈ l ++ [x'], P x := by
  intro x hx
  rcases List.mem_append.mp hx with hx | hx
  · exact h x hx
  · rw [List.mem_singleton.mp hx]
    exact hx'

/-- **One step keeps the stories.** -/
theorem story_step (hA : Reachable C g A)
    (h : ∀ x ∈ A.exchanges, Story C g A.keyring.trace A.keyring.now x) (hs : Step C g A A') :
    ∀ x ∈ A'.exchanges, Story C g A'.keyring.trace A'.keyring.now x := by
  have hgrows : A.keyring.trace <+: A'.keyring.trace ∧ A.keyring.now ≤ A'.keyring.now := by
    have hrun := step_keyring hs
    generalize A'.keyring = F' at hrun
    induction hrun with
    | refl => exact ⟨List.prefix_rfl, Int.le_refl _⟩
    | tail _ hstep ih =>
        obtain ⟨hT, hnow⟩ := keyring_grows hstep
        exact ⟨ih.1.trans hT, Int.le_trans ih.2 hnow⟩
  have hold : ∀ x ∈ A.exchanges, Story C g A'.keyring.trace A'.keyring.now x :=
    fun x hx => (h x hx).mono hgrows.1 hgrows.2
  have hstory : ∀ {i : Nat} {x : Exchange}, A.exchanges[i]? = some x →
      Story C g A.keyring.trace A.keyring.now x := fun hi => h _ (List.mem_of_getElem? hi)
  cases hs with
  | tick | attempt => exact hold
  | refuse => exact forall_append hold (.failed rfl)
  | send x secret form hadmit =>
      exact forall_append hold (.asking rfl (beginExchange_ok hadmit).2 rfl (Int.le_refl _))
  | reject => exact forall_set hold (.failed rfl)
  | accept i x response token kid hi hx hread =>
      refine forall_set hold ?_
      cases hstory hi with
      | @asking t form hphase hasked hhistory ht =>
          refine .keyed rfl hasked ?_ ⟨ht, Int.le_refl _⟩ hread
          show x.history ++ _ = _
          rw [hhistory]
          rfl
      | keyed hphase | returned hphase | failed hphase | dropped hphase =>
          cases hx.symm.trans hphase
  | serve i x token kid n key decoded now hi hx hn hfree hstart =>
      obtain ⟨hfresh, hkey⟩ := KeyCache.start_found.mp hstart
      have hkept := (Keyring.reachable_agrees hA.keyring).kept
      cases hlast : Keyring.lastFetch A.keyring.trace with
      | none =>
          rw [hlast] at hkept
          rw [show A.keyring.cache.keys = ∅ from hkept] at hkey
          cases hkey
      | some f =>
          rw [hlast] at hkept
          obtain ⟨hkeys, hdeadline, -⟩ := hkept
          obtain ⟨hpast, hpublished⟩ := fetched_before hA.keyring hlast
          exact forall_set hold (story_opened (hstory hi) hx List.prefix_rfl hlast hpublished
            (hkeys ▸ hkey) ⟨hpast, Or.inl (hdeadline ▸ hfresh)⟩ _)
  | succeed i x token kid n response keys freshness key decoded now hi hx hn hfetch hkey =>
      have hanswer : Keyring.answer n kid keys = .served n kid key := by
        rw [Keyring.answer, hkey]
      have htrace : A.keyring.trace ++ [(A.keyring.now, .fetched n keys freshness)] ++
          [(A.keyring.now, .served n kid key)] <+: A.keyring.trace ++
            [.fetched n keys freshness, Keyring.answer n kid keys].map fun e =>
              (A.keyring.now, e) := by
        rw [hanswer, List.append_assoc]
        exact List.prefix_rfl
      exact forall_set hold (story_opened (hstory hi) hx htrace (Keyring.lastFetch_snoc ..)
        (published_of hfetch) hkey ⟨Int.le_refl _, Or.inr rfl⟩ _)
  | throttle | exhausted | miss | fail => exact forall_set hold (.failed rfl)
  | dropAsking | dropWaiting | dropFetching => exact forall_set hold (.dropped rfl)

theorem stories (h : Reachable C g A) :
    ∀ x ∈ A.exchanges, Story C g A.keyring.trace A.keyring.now x := by
  induction h with
  | new now => exact fun x hx => nomatch hx
  | step hA hs ih => exact story_step hA ih hs

/-- **Logins at Google, in every run.** The permits that are there and the requests under way are
    eight together, so no permit is lost, whatever is dropped or fails; the lock of the keys is
    with an exchange that fetches them; and an exchange returns an identity only if Google
    answered its code with a token that was signed under a key of the most recent set, not after
    its time, and that has acceptable claims. -/
theorem exchange_verified (h : Reachable C g A) :
    A.permits + A.underWay = maxRequests ∧
    (∀ n, A.keyring.holder = some n → ∃ i token kid, A.KeyedAt i token kid n ∧
      A.keyring.At n kid .fetching) ∧
    ∀ x ∈ A.exchanges, ∀ identity, x.phase = .ended (.ok identity) →
      Verified C g A.keyring.trace x identity := by
  refine ⟨balanced h, (linked h).lock, fun x hx identity hphase => ?_⟩
  cases stories h x hx with
  | returned hended hverified =>
      cases hphase.symm.trans hended
      exact hverified
  | asking he | keyed he | failed he | dropped he => cases hphase.symm.trans he

/-! ## 7. A login by hand -/

namespace Sample

/-- Claims of a user for a client and a nonce. -/
def claims (g : GoogleAdapter) (nonce : String) : Claims where
  iss := "https://accounts.google.com"
  sub := "subject"
  aud := .one g.clientId
  azp := none
  exp := 1700003600
  iat := 1700000000
  nbf := none
  nonce := nonce
  authTime := none
  name := none
  givenName := none
  familyName := none
  picture := none
  email := none
  emailVerified := none

/-- Google has one key, and one token that was signed under it. -/
def tokenCrates (g : GoogleAdapter) (nonce : String) : TokenCrates :=
  { Keyring.Sample.jwksCrates with
    tokenResponse := fun body => if body = utf8 "token" then some "token" else none
    decodeHeader := fun _ => some ⟨.rs256, some "JWT", some "k"⟩
    firstSegment := fun _ => some (.obj [])
    decode := fun token key _ =>
      if token = "token" ∧ key.e = 65537 then some (claims g nonce) else none }

def tokenResponse : JwksResponse := ⟨200, [], none, utf8 "token"⟩

variable {g : GoogleAdapter} {nonce : String}

theorem read_token (h : validOpaque nonce = true) :
    readAnswer (tokenCrates g nonce) (some tokenResponse) nonce = .ok ("token", "k") := by
  have hbody : boundedBody tokenResponse maxTokenResponse = some (utf8 "token") := by decide
  have hparsed : (tokenCrates g nonce).tokenResponse (utf8 "token") = some "token" := by
    show (if utf8 "token" = utf8 "token" then some "token" else none) = some "token"
    exact if_pos rfl
  have htoken : readIdToken (tokenCrates g nonce) (some tokenResponse) = .ok "token" := by
    have hstatus : ¬tokenResponse.status ≠ 200 := by decide
    rw [readIdToken, if_neg hstatus, hbody, Option.bind_some, hparsed]
  have hkid : readKid (tokenCrates g nonce) "token" nonce = .ok "k" := by
    rw [readKid, h]
    rfl
  rw [readAnswer, htoken]
  show (readKid (tokenCrates g nonce) "token" nonce).bind _ = _
  rw [hkid]
  rfl

theorem open_token {key : RsaPublicKey} (hkey : key.e = 65537) :
    openToken (tokenCrates g nonce) g "token" nonce key 1700000000 1700000000 =
      .ok Eri.Sample.identity := by
  have hdecode : (tokenCrates g nonce).decode "token" key 1700000000 = some (claims g nonce) :=
    if_pos ⟨rfl, hkey⟩
  have hclaims : validateClaims (claims g nonce) g.clientId nonce 1700000000 =
      some Eri.Sample.identity := by
    have hsubject : 1 ≤ (utf8 "subject").length ∧ (utf8 "subject").length ≤ 255 ∧
        ∀ b ∈ utf8 "subject", b < 128 := by decide +kernel
    have hissued : (0 : Int64) ≤ 1700000000 := by decide
    have htime : max (1700000000 : Int64).toInt (max (1700000000 : Int64).toInt
        (1700000000 : Int64).toInt) - 30 ≤ 1700000000 ∧
        (1700000000 : Int) ≤ (1700003600 : Int64).toInt + 30 := by decide
    have htoday : (1700000000 : Int64).toInt + 30 < 2 ^ 63 := by decide
    have haccepts : Accepts (claims g nonce) g.clientId nonce 1700000000 :=
      { issuer := Or.inr rfl
        subject := hsubject
        nonce := rfl
        audience := List.mem_singleton_self _
        authorized := Or.inl rfl
        several := fun ⟨_, h, _⟩ => nomatch h
        issued := hissued
        authenticated := nofun
        time := htime }
    obtain ⟨identity, hsome⟩ := Option.isSome_iff_exists.mp
      ((validateClaims_isSome htoday).mpr haccepts)
    rw [hsome, validateClaims_identity hsome]
    rfl
  rw [openToken, hdecode]
  dsimp only
  rw [hclaims]

/-- One login from the request to the identity. -/
theorem exchanged (x : LoginCode) (hcode : validOpaque x.code = true)
    (hverifier : validPkceVerifier x.verifier = true) (hnonce : validOpaque x.nonce = true) :
    ∃ A, Reachable (tokenCrates g x.nonce) g A ∧ ∃ y ∈ A.exchanges, y.code = x ∧
      y.phase = .ended (.ok Eri.Sample.identity) := by
  have hadmit : beginExchange g (some "secret") maxRequests x = .ok (tokenForm g "secret" x) := by
    rw [beginExchange, hcode, hverifier, hnonce]
    rfl
  have hsent := (Reachable.new (C := tokenCrates g x.nonce) (g := g) 0).step
    (.send _ x (some "secret") _ hadmit)
  have hkeyed := hsent.step
    (.accept _ 0 ⟨x, .asking, _⟩ (some tokenResponse) "token" "k" rfl rfl (read_token hnonce))
  have hfetching := hkeyed.step (.attempt _ 0 ⟨x, _, _⟩ "token" "k" 0 7 rfl rfl rfl rfl rfl rfl)
  have hended := hfetching.step (.succeed _ 0 ⟨x, _, _⟩ "token" "k" 0
    (some Keyring.Sample.response) _ 60 _ 1700000000 1700000000 rfl rfl rfl
    Keyring.Sample.fetch_response (AList.lookup_insert _))
  refine ⟨_, hended, _, List.mem_singleton_self _, rfl, ?_⟩
  exact congrArg ExchangePhase.ended (open_token rfl)

end Sample

/-- What stands behind an identity of a run. -/
theorem exchange_verified_login :
    ∃ (C : TokenCrates) (g : GoogleAdapter) (A : Adapter) (x : Exchange),
    x.code = ⟨"code", String.ofList (List.replicate 43 'v'), "nonce"⟩ ∧
    Verified C g A.keyring.trace x Eri.Sample.identity := by
  obtain ⟨A, hA, x, hx, hcode, hphase⟩ := Sample.exchanged (g := Web.Sample.localProvider.google)
    ⟨"code", String.ofList (List.replicate 43 'v'), "nonce"⟩ (by decide) (by decide) (by decide)
  obtain ⟨_, _, hverified⟩ := exchange_verified hA
  exact ⟨_, _, A, x, hcode, hverified x hx _ hphase⟩

end Adapter

end Google

end Eri
