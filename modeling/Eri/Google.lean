/-
  File:      Eri/Google.lean
  Subject:   The signing keys of Google (src/google.rs, `GoogleAdapter::key` and `fetch_keys`),
             any number of calls interleaved.

  The cache is behind a lock that a call keeps while it fetches. A call that gets the lock reads
  the clock once: it is served from the cache, refused because the last attempt was moments ago,
  or it attempts a fetch. A call can be dropped while it waits for the lock or for the network.

  * `fetchKeys`, `cacheFreshness` -- a key set and how long it may be used;
  * `KeyCache.start` -- what a call decides when it has the lock;
  * `Keyring`, `Keyring.Step`, `Keyring.Reachable` -- calls, their steps and runs;
  * `Keyring.Agrees` -- the cache is what the last successful fetch made it;
  * `Keyring.key_cache` -- **what the cache and the throttle guarantee in every run**.
-/
import Eri.Http
import Eri.Jwt
import Eri.Fetcher

namespace Eri

namespace Google

open Cimd (trim lower parseU64)
open Web (HeaderMap getAll toStr)

/-! ## 1. Key sets -/

def maxJwksResponse : Nat := 256 * 1024

def maxKeys : Nat := 32

/-- `MAX_CACHE_AGE`, in seconds. -/
def maxCacheAge : Nat := 3600

def unknownKidBackoff : Instant := 5 * instantSecond

/-- `GoogleError`, as far as it is returned here. -/
inductive GoogleError where
  | keysUnavailable
  deriving DecidableEq

/-- `google::Jwk`. -/
structure GoogleJwk where
  kty : String
  kid : String
  n : String
  e : String
  alg : Option String
  use : Option String
  keyOps : Option (List String)

/-- The keys of a set, by id. -/
abbrev Keys : Type := AList fun _ : String => RsaPublicKey

/-- `serde_json` for a key set, and the checks of `RsaPublicKey::new`. -/
structure JwksCrates where
  jwkSet : List UInt8 → Option (List GoogleJwk)
  validKey : RsaPublicKey → Bool

/-- A response of the key endpoint, whole. -/
structure JwksResponse where
  status : Nat
  headers : HeaderMap
  contentLength : Option Nat
  body : List UInt8

/-- `bounded_body`. -/
def boundedBody (r : JwksResponse) (maximum : Nat) : Option (List UInt8) :=
  if r.contentLength.any (fun length => maximum < length) || maximum < r.body.length then none
  else some r.body

/-- The value of the first header of a name. -/
def headerText (h : HeaderMap) (name : String) : Option (List Char) :=
  (getAll h name).head?.bind toStr

/-- `cache_freshness`, in seconds. -/
def cacheFreshness (h : HeaderMap) : Nat :=
  let directives := (((headerText h "cache-control").getD []).splitOn ',').map fun v =>
    (lower (trim v)).toList
  if directives.any fun v => v = "no-cache".toList || v = "no-store".toList then 0
  else
    let stated := directives.findSome? fun v => (stripPrefix "max-age=" v).bind parseU64
    let age := (headerText h "age").bind parseU64
    min (stated.getD 0) maxCacheAge - age.getD 0

/-- `BigUint::from_bytes_be`. -/
def fromBytesBe (bytes : List UInt8) : Nat := bytes.foldl (fun n b => n * 256 + b.toNat) 0

section Fetch

variable (C : JwksCrates)

/-- The key of one entry of a set, when it is one to sign with. -/
def readKey (jwk : GoogleJwk) : Option RsaPublicKey := do
  if jwk.kty ≠ "RSA" ∨ jwk.kid.isEmpty ∨ jwk.kid.utf8ByteSize > 128 ∨
      jwk.alg.any (· != "RS256") ∨ jwk.use.any (· != "sig") ∨
      jwk.keyOps.any (fun ops => ops.isEmpty || ops.any (· != "verify")) then none
  else do
    let n ← Base64Url.decode jwk.n.toList
    let e ← Base64Url.decode jwk.e.toList
    if ¬(256 ≤ n.length ∧ n.length ≤ 1024) ∨ e.isEmpty ∨ e.length > 8 then none
    else
      let key : RsaPublicKey := ⟨fromBytesBe n, fromBytesBe e⟩
      if ¬C.validKey key ∨ ¬(2048 ≤ key.n.size ∧ key.n.size ≤ 8192) then none else some key

/-- One turn of the loop: an id that is there already makes the whole set unusable. -/
def insertKey (keys : Keys) (jwk : GoogleJwk) : Except GoogleError Keys :=
  match readKey C jwk with
  | some key => if jwk.kid ∈ keys then .error .keysUnavailable else .ok (keys.insert jwk.kid key)
  | none => .error .keysUnavailable

/-- `fetch_keys`, when a permit was there or not, with the response if there was one. -/
def fetchKeys (permit : Bool) (response : Option JwksResponse) : Except GoogleError (Keys × Nat) :=
  if !permit then .error .keysUnavailable
  else
    match response with
    | none => .error .keysUnavailable
    | some r =>
        if r.status ≠ 200 then .error .keysUnavailable
        else
          match (boundedBody r maxJwksResponse).bind C.jwkSet with
          | none => .error .keysUnavailable
          | some jwks =>
              if jwks.isEmpty ∨ jwks.length > maxKeys then .error .keysUnavailable
              else (jwks.foldlM (insertKey C) ∅).map fun keys => (keys, cacheFreshness r.headers)

end Fetch

/-- A key set is used for an hour at most. -/
theorem cacheFreshness_le (h : HeaderMap) : cacheFreshness h ≤ maxCacheAge := by
  unfold cacheFreshness
  dsimp only
  split
  · exact Nat.zero_le _
  · exact (Nat.sub_le ..).trans (Nat.min_le_right ..)

theorem fetchKeys_freshness {C : JwksCrates} {permit : Bool} {response : Option JwksResponse}
    {keys : Keys} {freshness : Nat} (h : fetchKeys C permit response = .ok (keys, freshness)) :
    freshness ≤ maxCacheAge := by
  unfold fetchKeys at h
  split at h
  · cases h
  split at h
  · cases h
  obtain ⟨-, h⟩ := ite_ok h
  split at h
  · cases h
  obtain ⟨-, h⟩ := ite_ok h
  rename_i _ _ r _ _ jwks _ _
  cases hkeys : jwks.foldlM (insertKey C) ∅ with
  | ok keys' =>
      rw [hkeys] at h
      cases h
      exact cacheFreshness_le r.headers
  | error e =>
      rw [hkeys] at h
      cases h

/-! ## 2. The cache -/

structure KeyCache where
  keys : Keys
  freshUntil : Instant
  lastAttempt : Option Instant

/-- What a call does when it has the lock. -/
inductive KeyStart where
  | found (key : RsaPublicKey)
  | throttled
  | fetch

/-- `key`, until it fetches. -/
def KeyCache.start (c : KeyCache) (now : Instant) (kid : String) : KeyStart :=
  match if now < c.freshUntil then c.keys.lookup kid else none with
  | some key => .found key
  | none =>
      if c.lastAttempt.any fun attempt => now - attempt < unknownKidBackoff then .throttled
      else .fetch

/-- `key`, after a fetch that was successful at `now`. -/
def KeyCache.refresh (c : KeyCache) (keys : Keys) (freshness : Nat) (now : Instant) : KeyCache :=
  { c with keys := keys, freshUntil := now + freshness * instantSecond }

/-- A key that is known while the cache is fresh is found. -/
theorem KeyCache.start_found {c : KeyCache} {now : Instant} {kid : String} {key : RsaPublicKey} :
    c.start now kid = .found key ↔ now < c.freshUntil ∧ c.keys.lookup kid = some key := by
  unfold KeyCache.start
  by_cases hfresh : now < c.freshUntil
  · rw [if_pos hfresh]
    cases hkey : c.keys.lookup kid with
    | some key' => simp [hfresh]
    | none =>
        dsimp only
        split <;> simp
  · rw [if_neg hfresh]
    dsimp only
    split <;> simp [hfresh]

/-- A call that fetches comes late enough after the last attempt. -/
theorem KeyCache.start_fetch {c : KeyCache} {now : Instant} {kid : String}
    (h : c.start now kid = .fetch) :
    ∀ attempt ∈ c.lastAttempt, attempt + unknownKidBackoff ≤ now := by
  unfold KeyCache.start at h
  intro attempt hattempt
  split at h
  · cases h
  split at h
  · cases h
  · rename_i hno
    rw [Option.mem_def.mp hattempt] at hno
    have hlate : ¬now - attempt < unknownKidBackoff := by simpa using hno
    exact Int.add_le_of_le_sub_left (Int.not_lt.mp hlate)

/-! ## 3. Calls and their steps -/

/-- A call waits for the lock, or for the network with the lock in hand, or it is over. -/
inductive KeyPhase where
  | waiting
  | fetching
  | ended
  deriving DecidableEq

structure KeyCall where
  kid : String
  phase : KeyPhase

/-- What happens: call `i` is served a key from the cache or after its fetch, or refused; it
    attempts a fetch, which succeeds, fails or is dropped. -/
inductive KeyEvent where
  | served (i : Nat) (kid : String) (key : RsaPublicKey)
  | throttled (i : Nat) (kid : String)
  | attempted (i : Nat) (kid : String)
  | fetched (i : Nat) (keys : Keys) (freshness : Nat)
  | absent (i : Nat) (kid : String)
  | failed (i : Nat)
  | dropped (i : Nat)

abbrev Trace : Type := List (Instant × KeyEvent)

/-- The adapter's cache, its lock and the calls of `key`; `trace` is what happened, and when. -/
structure Keyring where
  now : Instant
  calls : List KeyCall
  holder : Option Nat
  cache : KeyCache
  trace : Trace

namespace Keyring

/-- `GoogleAdapter::with_parts`. -/
def new (now : Instant) : Keyring := ⟨now, [], none, ⟨∅, now, none⟩, []⟩

def At (F : Keyring) (i : Nat) (kid : String) (p : KeyPhase) : Prop := F.calls[i]? = some ⟨kid, p⟩

def move (F : Keyring) (i : Nat) (kid : String) (p : KeyPhase) : Keyring :=
  { F with calls := F.calls.set i ⟨kid, p⟩ }

def record (F : Keyring) (es : List KeyEvent) : Keyring :=
  { F with trace := F.trace ++ es.map fun e => (F.now, e) }

/-- What a call returns from the keys it has fetched. -/
def answer (i : Nat) (kid : String) (keys : Keys) : KeyEvent :=
  match keys.lookup kid with
  | some key => .served i kid key
  | none => .absent i kid

variable (C : JwksCrates)

/-- **One step**: time passes, a call begins, or a call goes on. -/
inductive Step : Keyring → Keyring → Prop where
  | tick (F : Keyring) (later : Instant) (h : F.now ≤ later) : Step F { F with now := later }
  | call (F : Keyring) (kid : String) : Step F { F with calls := F.calls ++ [⟨kid, .waiting⟩] }
  | serve (F : Keyring) (i : Nat) (kid : String) (key : RsaPublicKey) (hi : F.At i kid .waiting)
      (hfree : F.holder = none) (hstart : F.cache.start F.now kid = .found key) :
      Step F ((F.move i kid .ended).record [.served i kid key])
  | throttle (F : Keyring) (i : Nat) (kid : String) (hi : F.At i kid .waiting)
      (hfree : F.holder = none) (hstart : F.cache.start F.now kid = .throttled) :
      Step F ((F.move i kid .ended).record [.throttled i kid])
  | attempt (F : Keyring) (i : Nat) (kid : String) (hi : F.At i kid .waiting)
      (hfree : F.holder = none) (hstart : F.cache.start F.now kid = .fetch) :
      Step F { (F.move i kid .fetching).record [.attempted i kid] with
        holder := some i, cache := { F.cache with lastAttempt := some F.now } }
  | succeed (F : Keyring) (i : Nat) (kid : String) (permit : Bool) (response : Option JwksResponse)
      (keys : Keys) (freshness : Nat) (hi : F.At i kid .fetching)
      (hfetch : fetchKeys C permit response = .ok (keys, freshness)) :
      Step F { (F.move i kid .ended).record [.fetched i keys freshness, answer i kid keys] with
        holder := none, cache := F.cache.refresh keys freshness F.now }
  | fail (F : Keyring) (i : Nat) (kid : String) (permit : Bool) (response : Option JwksResponse)
      (e : GoogleError) (hi : F.At i kid .fetching)
      (hfetch : fetchKeys C permit response = .error e) :
      Step F { (F.move i kid .ended).record [.failed i] with holder := none }
  | leave (F : Keyring) (i : Nat) (kid : String) (hi : F.At i kid .waiting) :
      Step F (F.move i kid .ended)
  | drop (F : Keyring) (i : Nat) (kid : String) (hi : F.At i kid .fetching) :
      Step F { (F.move i kid .ended).record [.dropped i] with holder := none }

/-- The states of an adapter from its creation. -/
inductive Reachable : Keyring → Prop where
  | new (now : Instant) : Reachable (new now)
  | step {F F' : Keyring} (h : Reachable F) (hs : Step C F F') : Reachable F'

/-! ## 4. What a step does -/

/-- A successful fetch: when, by which call, and what it gave. -/
structure Fetch where
  time : Instant
  caller : Nat
  keys : Keys
  freshness : Nat

def Fetch.deadline (f : Fetch) : Instant := f.time + f.freshness * instantSecond

def fetchOf : Instant × KeyEvent → Option Fetch
  | (t, .fetched i keys freshness) => some ⟨t, i, keys, freshness⟩
  | _ => none

/-- The most recent successful fetch. -/
def lastFetch (trace : Trace) : Option Fetch := trace.foldl (fun last e => (fetchOf e).or last) none

def attemptOf : Instant × KeyEvent → Option Instant
  | (t, .attempted _ _) => some t
  | _ => none

/-- The moments at which a fetch was attempted. -/
def attempts (trace : Trace) : List Instant := trace.filterMap attemptOf

@[simp] theorem lastFetch_snoc (trace : Trace) (e : Instant × KeyEvent) :
    lastFetch (trace ++ [e]) = (fetchOf e).or (lastFetch trace) := by
  simp [lastFetch, List.foldl_append]

@[simp] theorem attempts_snoc (trace : Trace) (e : Instant × KeyEvent) :
    attempts (trace ++ [e]) = attempts trace ++ (attemptOf e).toList := by
  simp only [attempts, List.filterMap_append]
  cases h : attemptOf e <;> simp [h]

variable {C} {F F' : Keyring}

/-- A step as the trace and the cache see it. -/
inductive Acts (C : JwksCrates) (F F' : Keyring) : Prop where
  | quiet (htrace : F'.trace = F.trace) (hcache : F'.cache = F.cache) : Acts C F F'
  | serves {i : Nat} {kid : String} {key : RsaPublicKey}
      (hstart : F.cache.start F.now kid = .found key)
      (htrace : F'.trace = F.trace ++ [(F.now, .served i kid key)]) (hcache : F'.cache = F.cache) :
      Acts C F F'
  | throttles {i : Nat} {kid : String} (hstart : F.cache.start F.now kid = .throttled)
      (htrace : F'.trace = F.trace ++ [(F.now, .throttled i kid)]) (hcache : F'.cache = F.cache) :
      Acts C F F'
  | attempts {i : Nat} {kid : String} (hstart : F.cache.start F.now kid = .fetch)
      (htrace : F'.trace = F.trace ++ [(F.now, .attempted i kid)])
      (hcache : F'.cache = { F.cache with lastAttempt := some F.now }) : Acts C F F'
  | fetches {i : Nat} {kid : String} {keys : Keys} {freshness : Nat}
      (hfreshness : freshness ≤ maxCacheAge)
      (htrace : F'.trace = F.trace ++ [(F.now, .fetched i keys freshness)] ++
        [(F.now, answer i kid keys)])
      (hcache : F'.cache = F.cache.refresh keys freshness F.now) : Acts C F F'
  | fails {i : Nat} {e : KeyEvent} (he : e = .failed i ∨ e = .dropped i)
      (htrace : F'.trace = F.trace ++ [(F.now, e)]) (hcache : F'.cache = F.cache) : Acts C F F'

theorem step_acts (h : Step C F F') : Acts C F F' := by
  cases h with
  | tick later h => exact .quiet rfl rfl
  | call kid => exact .quiet rfl rfl
  | serve i kid key hi hfree hstart => exact .serves hstart rfl rfl
  | throttle i kid hi hfree hstart => exact .throttles hstart rfl rfl
  | attempt i kid hi hfree hstart => exact .attempts hstart rfl rfl
  | succeed i kid permit response keys freshness hi hfetch =>
      have htrace : F.trace ++ [(F.now, .fetched i keys freshness), (F.now, answer i kid keys)] =
          F.trace ++ [(F.now, .fetched i keys freshness)] ++ [(F.now, answer i kid keys)] := by
        simp
      exact .fetches (fetchKeys_freshness hfetch) htrace rfl
  | fail i kid permit response e hi hfetch => exact .fails (Or.inl rfl) rfl rfl
  | leave i kid hi => exact .quiet rfl rfl
  | drop i kid hi => exact .fails (Or.inr rfl) rfl rfl

/-! ## 5. The cache in a run -/

/-- The cache is what the most recent successful fetch made it. -/
def KeptBy (c : KeyCache) : Option Fetch → Prop
  | none => c.keys = ∅
  | some f => c.keys = f.keys ∧ c.freshUntil = f.deadline ∧ f.freshness ≤ maxCacheAge

/-- An event is right after what happened before: a key comes from the most recent successful
    fetch, in its time or by the call that made it; a call that is refused or fetches asked for a
    key that was not there, or no longer. -/
def Right (before : Trace) (t : Instant) : KeyEvent → Prop
  | .served i kid key => ∃ f, lastFetch before = some f ∧ f.keys.lookup kid = some key ∧
      (t < f.deadline ∨ f.caller = i)
  | .throttled _ kid | .attempted _ kid =>
      ∀ f, lastFetch before = some f → t < f.deadline → f.keys.lookup kid = none
  | .fetched _ _ _ | .absent _ _ | .failed _ | .dropped _ => True

/-- **What holds in every run.** -/
structure Agrees (F : Keyring) : Prop where
  kept : KeptBy F.cache (lastFetch F.trace)
  last : F.cache.lastAttempt = (attempts F.trace).getLast?
  spaced : (attempts F.trace).Pairwise fun t t' => t + unknownKidBackoff ≤ t'
  right : ∀ before t e after, F.trace = before ++ (t, e) :: after → Right before t e

theorem new_agrees (now : Instant) : Agrees (new now) where
  kept := rfl
  last := rfl
  spaced := List.Pairwise.nil
  right _ _ _ _ h := by simp [new] at h

/-- Every event of a longer trace is right when the new one is. -/
theorem right_snoc {trace : Trace} {t : Instant} {e : KeyEvent}
    (h : ∀ before t e after, trace = before ++ (t, e) :: after → Right before t e)
    (he : Right trace t e) (before : Trace) (t' : Instant) (e' : KeyEvent) (after : Trace)
    (hsplit : trace ++ [(t, e)] = before ++ (t', e') :: after) : Right before t' e' := by
  rcases List.eq_nil_or_concat after with rfl | ⟨after', last, rfl⟩
  · obtain ⟨rfl, heq⟩ := List.append_inj' hsplit rfl
    obtain ⟨rfl, rfl⟩ := Prod.mk.inj (List.singleton_inj.mp heq)
    exact he
  · rw [List.concat_eq_append, ← List.cons_append, ← List.append_assoc] at hsplit
    exact h _ _ _ after' (List.append_inj' hsplit rfl).1

/-- A trace that grows by an event of no fetch and no attempt. -/
theorem Agrees.snoc {t : Instant} {e : KeyEvent} (h : Agrees F)
    (htrace : F'.trace = F.trace ++ [(t, e)]) (hcache : F'.cache = F.cache)
    (hfetch : fetchOf (t, e) = none) (hattempt : attemptOf (t, e) = none)
    (hright : Right F.trace t e) : Agrees F' where
  kept := by
    rw [htrace, hcache, lastFetch_snoc, hfetch]
    exact h.kept
  last := by
    rw [htrace, hcache, attempts_snoc, hattempt, h.last]
    simp
  spaced := by
    rw [htrace, attempts_snoc, hattempt]
    simpa using h.spaced
  right := by
    rw [htrace]
    exact right_snoc h.right hright

/-- A call that does not find its key asked for one that the cache does not hold in its time. -/
theorem Agrees.missing (h : Agrees F) {kid : String}
    (hstart : ∀ key, F.cache.start F.now kid ≠ .found key) (f : Fetch)
    (hf : lastFetch F.trace = some f) (hfresh : F.now < f.deadline) :
    f.keys.lookup kid = none := by
  have hkept := h.kept
  rw [hf] at hkept
  obtain ⟨hkeys, hdeadline, -⟩ := hkept
  cases hkey : f.keys.lookup kid with
  | none => rfl
  | some key =>
      have hfound : F.cache.start F.now kid = .found key :=
        KeyCache.start_found.mpr ⟨hdeadline ▸ hfresh, hkeys ▸ hkey⟩
      exact absurd hfound (hstart key)

/-- A new attempt is late enough after all others when it is after the last one. -/
theorem late_after_all {l : List Instant} {now : Instant}
    (hspaced : l.Pairwise fun t t' => t + unknownKidBackoff ≤ t')
    (hlast : ∀ t ∈ l.getLast?, t + unknownKidBackoff ≤ now) :
    ∀ t ∈ l, t + unknownKidBackoff ≤ now := by
  rcases List.eq_nil_or_concat l with rfl | ⟨l, last, rfl⟩
  · exact List.forall_mem_nil _
  · rw [List.concat_eq_append] at hspaced hlast ⊢
    have hnow : last + unknownKidBackoff ≤ now := hlast last (by simp)
    intro t ht
    rcases List.mem_append.mp ht with ht | ht
    · have hbefore := (List.pairwise_append.mp hspaced).2.2 t ht last (List.mem_singleton_self _)
      have hpause : last ≤ last + unknownKidBackoff := Int.le_add_of_nonneg_right (by decide)
      exact Int.le_trans hbefore (Int.le_trans hpause hnow)
    · rw [List.mem_singleton.mp ht]
      exact hnow

/-- What a call returns after its fetch is right. -/
theorem right_answer {trace : Trace} {t : Instant} {i : Nat} {kid : String} {keys : Keys}
    {f : Fetch} (hf : lastFetch trace = some f) (hkeys : f.keys = keys) (hcaller : f.caller = i) :
    Right trace t (answer i kid keys) := by
  unfold answer
  split
  · rename_i key hkey
    exact ⟨f, hf, hkeys ▸ hkey, Or.inr hcaller⟩
  · trivial

theorem answer_neither (t : Instant) (i : Nat) (kid : String) (keys : Keys) :
    fetchOf (t, answer i kid keys) = none ∧ attemptOf (t, answer i kid keys) = none := by
  unfold answer
  split <;> exact ⟨rfl, rfl⟩

/-- One step keeps it. -/
theorem Agrees.step (h : Agrees F) (hs : Step C F F') : Agrees F' := by
  cases step_acts hs with
  | quiet htrace hcache =>
      exact ⟨by rw [htrace, hcache]; exact h.kept, by rw [htrace, hcache]; exact h.last,
        by rw [htrace]; exact h.spaced, by rw [htrace]; exact h.right⟩
  | @serves i kid key hstart htrace hcache =>
      refine h.snoc htrace hcache rfl rfl ?_
      obtain ⟨hfresh, hkey⟩ := KeyCache.start_found.mp hstart
      have hkept := h.kept
      cases hlast : lastFetch F.trace with
      | none =>
          rw [hlast] at hkept
          rw [show F.cache.keys = ∅ from hkept] at hkey
          cases hkey
      | some f =>
          rw [hlast] at hkept
          obtain ⟨hkeys, hdeadline, -⟩ := hkept
          exact ⟨f, hlast, hkeys ▸ hkey, Or.inl (hdeadline ▸ hfresh)⟩
  | throttles hstart htrace hcache =>
      exact h.snoc htrace hcache rfl rfl (h.missing fun key => by rw [hstart]; exact nofun)
  | @attempts i kid hstart htrace hcache =>
      have hright : Right F.trace F.now (.attempted i kid) :=
        h.missing fun key => by rw [hstart]; exact nofun
      have hnone : fetchOf (F.now, .attempted i kid) = none := rfl
      have hnow : attemptOf (F.now, .attempted i kid) = some F.now := rfl
      exact {
        kept := by
          rw [htrace, hcache, lastFetch_snoc, hnone]
          exact h.kept
        last := by
          rw [htrace, hcache, attempts_snoc, hnow]
          simp
        spaced := by
          rw [htrace, attempts_snoc, hnow]
          refine List.pairwise_append.mpr ⟨h.spaced, List.pairwise_singleton ..,
            fun t ht t' ht' => ?_⟩
          rw [List.mem_singleton.mp ht']
          exact late_after_all h.spaced (h.last ▸ KeyCache.start_fetch hstart) t ht
        right := by
          rw [htrace]
          exact right_snoc h.right hright }
  | @fetches i kid keys freshness hfreshness htrace hcache =>
      have hfetch : fetchOf (F.now, .fetched i keys freshness) = some ⟨F.now, i, keys, freshness⟩ :=
        rfl
      have hno : attemptOf (F.now, .fetched i keys freshness) = none := rfl
      obtain ⟨hanswer, hnot⟩ := answer_neither F.now i kid keys
      have hlast : lastFetch (F.trace ++ [(F.now, .fetched i keys freshness)]) =
          some ⟨F.now, i, keys, freshness⟩ := by
        rw [lastFetch_snoc, hfetch]
        rfl
      exact {
        kept := by
          rw [htrace, hcache, lastFetch_snoc, hanswer, hlast]
          exact ⟨rfl, rfl, hfreshness⟩
        last := by
          rw [htrace, hcache, attempts_snoc, hnot, attempts_snoc, hno]
          simpa [KeyCache.refresh] using h.last
        spaced := by
          rw [htrace, attempts_snoc, hnot, attempts_snoc, hno]
          simpa using h.spaced
        right := by
          rw [htrace]
          exact right_snoc (right_snoc h.right trivial) (right_answer hlast rfl rfl) }
  | fails he htrace hcache =>
      rcases he with rfl | rfl
      · exact h.snoc htrace hcache rfl rfl trivial
      · exact h.snoc htrace hcache rfl rfl trivial

theorem reachable_agrees (h : Reachable C F) : Agrees F := by
  induction h with
  | new now => exact new_agrees now
  | step _ hs ih => exact ih.step hs

/-! ## 6. The lock -/

/-- A call that fetches has the lock. -/
def Locked (F : Keyring) : Prop := ∀ i kid, F.At i kid .fetching → F.holder = some i

/-- The calls after one of them went on. -/
theorem at_move {i j : Nat} {kid kid' : String} {p q : KeyPhase}
    (h : (F.move i kid q).At j kid' p) : (j = i ∧ p = q) ∨ (j ≠ i ∧ F.At j kid' p) := by
  simp only [At, move, List.getElem?_set] at h
  split at h
  · rename_i hij
    split at h
    · cases h
      exact Or.inl ⟨hij.symm, rfl⟩
    · cases h
  · rename_i hij
    exact Or.inr ⟨fun e => hij e.symm, h⟩

/-- No call begins a fetch when another ends. -/
theorem fetching_before {i j : Nat} {kid kid' : String}
    (hj : (F.move i kid .ended).At j kid' .fetching) : F.At j kid' .fetching := by
  rcases at_move hj with ⟨-, hp⟩ | ⟨-, hj⟩
  · cases hp
  · exact hj

/-- A call that ends gives up the lock it had, and no other call had it. -/
theorem locked_end {i : Nat} {kid : String} (h : Locked F) (hi : F.At i kid .fetching)
    {j : Nat} {kid' : String} : ¬(F.move i kid .ended).At j kid' .fetching := by
  intro hj
  rcases at_move hj with ⟨-, hp⟩ | ⟨hne, hj⟩
  · cases hp
  · exact hne (Option.some.inj ((h j kid' hj).symm.trans (h i kid hi)))

theorem locked_step (h : Locked F) (hs : Step C F F') : Locked F' := by
  cases hs with
  | tick later hlater => exact h
  | call kid =>
      intro j kid' hj
      refine h j kid' ?_
      simp only [At, List.getElem?_append] at hj ⊢
      split at hj
      · exact hj
      · cases List.mem_singleton.mp (List.mem_of_getElem? hj)
  | serve i kid key hi hfree hstart => exact fun j kid' hj => h j kid' (fetching_before hj)
  | throttle i kid hi hfree hstart => exact fun j kid' hj => h j kid' (fetching_before hj)
  | attempt i kid hi hfree hstart =>
      intro j kid' hj
      rcases at_move hj with ⟨rfl, -⟩ | ⟨-, hj⟩
      · rfl
      · exact absurd (h j kid' hj) (by rw [hfree]; exact nofun)
  | succeed i kid permit response keys freshness hi hfetch =>
      exact fun j kid' hj => absurd hj (locked_end h hi)
  | fail i kid permit response e hi hfetch => exact fun j kid' hj => absurd hj (locked_end h hi)
  | leave i kid hi => exact fun j kid' hj => h j kid' (fetching_before hj)
  | drop i kid hi => exact fun j kid' hj => absurd hj (locked_end h hi)

theorem reachable_locked (h : Reachable C F) : Locked F := by
  induction h with
  | new now => exact fun i kid hi => by simp [At, new] at hi
  | step _ hs ih => exact locked_step ih hs

/-- The other calls stay where they are. -/
theorem at_other {i j : Nat} {kid kid' : String} {p q : KeyPhase} (h : F.At j kid' p)
    (hne : j ≠ i) : (F.move i kid q).At j kid' p := by
  simpa only [At, move, List.getElem?_set_ne (Ne.symm hne)] using h

/-- What call `i` has come to: it fetches with the cache untouched, or it is over. -/
def Untouched (c : KeyCache) (i : Nat) (kid : String) (F : Keyring) : Prop :=
  F.At i kid .fetching ∧ F.cache = c ∨ F.At i kid .ended

/-- A step as the calls see it: all stay, or one goes on, and the cache changes only under the
    lock. -/
inductive Turns (F F' : Keyring) : Prop where
  | all (hcalls : ∀ j kid p, F.At j kid p → F'.At j kid p) (hcache : F'.cache = F.cache) :
      Turns F F'
  | one {i : Nat} {kid : String} {p q : KeyPhase} (hi : F.At i kid p) (hp : p ≠ .ended)
      (hcalls : F'.calls = (F.move i kid q).calls) (hend : p = .fetching → q = .ended)
      (hcache : F'.cache = F.cache ∨ F.holder = none ∨ p = .fetching) : Turns F F'

theorem step_turns (h : Step C F F') : Turns F F' := by
  cases h with
  | tick later h => exact .all (fun _ _ _ hj => hj) rfl
  | call kid =>
      refine .all (fun j kid' p hj => ?_) rfl
      rw [At, List.getElem?_append_left (List.getElem?_eq_some_iff.mp hj).1]
      exact hj
  | serve i kid key hi hfree hstart => exact .one hi nofun rfl (fun _ => rfl) (Or.inl rfl)
  | throttle i kid hi hfree hstart => exact .one hi nofun rfl (fun _ => rfl) (Or.inl rfl)
  | attempt i kid hi hfree hstart => exact .one hi nofun rfl nofun (Or.inr (Or.inl hfree))
  | succeed i kid permit response keys freshness hi hfetch =>
      exact .one hi nofun rfl (fun _ => rfl) (Or.inr (Or.inr rfl))
  | fail i kid permit response e hi hfetch => exact .one hi nofun rfl (fun _ => rfl) (Or.inl rfl)
  | leave i kid hi => exact .one hi nofun rfl (fun _ => rfl) (Or.inl rfl)
  | drop i kid hi => exact .one hi nofun rfl (fun _ => rfl) (Or.inl rfl)

/-- A call stands at one phase. -/
theorem At.same {i : Nat} {kid kid' : String} {p q : KeyPhase} (h : F.At i kid p)
    (h' : F.At i kid' q) : kid = kid' ∧ p = q := by
  cases h.symm.trans h'
  exact ⟨rfl, rfl⟩

theorem At.moved {i : Nat} {kid : String} {p q : KeyPhase} (h : F.At i kid p) :
    (F.move i kid q).At i kid q := by
  simp only [At, move]
  exact List.getElem?_set_self (List.getElem?_eq_some_iff.mp h).1

/-- **While a call fetches, no other touches the cache.** -/
theorem untouched_step {c : KeyCache} {i : Nat} {kid : String} (hF : Locked F)
    (h : Untouched c i kid F) (hs : Step C F F') : Untouched c i kid F' := by
  cases step_turns hs with
  | all hcalls hcache =>
      rcases h with ⟨hi, rfl⟩ | hi
      · exact Or.inl ⟨hcalls _ _ _ hi, hcache⟩
      · exact Or.inr (hcalls _ _ _ hi)
  | @one i' kid' p q hi' hp hcalls hend hcache =>
      have hat : ∀ j kid p, (F.move i' kid' q).At j kid p → F'.At j kid p := fun j kid p hj => by
        rw [At, hcalls]
        exact hj
      by_cases hsame : i = i'
      · subst hsame
        rcases h with ⟨hi, rfl⟩ | hi
        · obtain ⟨rfl, rfl⟩ := hi'.same hi
          exact Or.inr (hat _ _ _ (hend rfl ▸ hi'.moved))
        · exact absurd (hi'.same hi).2 hp
      · rcases h with ⟨hi, rfl⟩ | hi
        · refine Or.inl ⟨hat _ _ _ (at_other hi hsame), ?_⟩
          have hlock := hF i kid hi
          rcases hcache with hcache | hfree | rfl
          · exact hcache
          · exact absurd hlock (by rw [hfree]; exact nofun)
          · exact absurd (Option.some.inj (hlock.symm.trans (hF i' kid' hi'))) hsame
        · exact Or.inr (hat _ _ _ (at_other hi hsame))

theorem untouched_run {c : KeyCache} {i : Nat} {kid : String} (hF : Locked F)
    (h : Untouched c i kid F) (hrun : Relation.ReflTransGen (Step C) F F') :
    Locked F' ∧ Untouched c i kid F' := by
  induction hrun with
  | refl => exact ⟨hF, h⟩
  | tail _ hs ih => exact ⟨locked_step ih.1 hs, untouched_step ih.1 ih.2 hs⟩

/-! ## 7. Google's keys -/

/-- Call `i` has failed to fetch, or was dropped while it fetched. -/
def GivesUp (i : Nat) (F F' : Keyring) : Prop :=
  F'.trace = F.trace ++ [(F.now, .failed i)] ∨ F'.trace = F.trace ++ [(F.now, .dropped i)]

/-- A call goes from waiting to fetching by an attempt, which it notes. -/
theorem attempt_cache {i : Nat} {kid : String} (hi : F.At i kid .waiting) (hs : Step C F F')
    (hi' : F'.At i kid .fetching) : F'.cache = { F.cache with lastAttempt := some F.now } := by
  have hno : ¬F.At i kid .fetching := fun h => absurd (hi.same h).2 nofun
  cases hs with
  | tick later h => exact absurd hi' hno
  | call kid' =>
      refine absurd ?_ hno
      rw [At, List.getElem?_append_left (List.getElem?_eq_some_iff.mp hi).1] at hi'
      exact hi'
  | serve i' kid' key _ _ _ => exact absurd (fetching_before hi') hno
  | throttle i' kid' _ _ _ => exact absurd (fetching_before hi') hno
  | attempt i' kid' _ _ _ => rfl
  | succeed i' kid' permit response keys freshness _ _ => exact absurd (fetching_before hi') hno
  | fail i' kid' permit response e _ _ => exact absurd (fetching_before hi') hno
  | leave i' kid' _ => exact absurd (fetching_before hi') hno
  | drop i' kid' _ => exact absurd (fetching_before hi') hno

/-- A step that gives up does not change the cache. -/
theorem givesUp_cache {i : Nat} (hs : Step C F F') (h : GivesUp i F F') : F'.cache = F.cache := by
  have hlast : F'.trace.getLast? = some (F.now, .failed i) ∨
      F'.trace.getLast? = some (F.now, .dropped i) := by
    rcases h with h | h
    · exact Or.inl (by rw [h, List.getLast?_concat])
    · exact Or.inr (by rw [h, List.getLast?_concat])
  cases step_acts hs with
  | quiet htrace hcache => exact hcache
  | serves hstart htrace hcache => exact hcache
  | throttles hstart htrace hcache => exact hcache
  | attempts hstart htrace hcache =>
      rw [htrace, List.getLast?_concat] at hlast
      rcases hlast with h | h <;> cases h
  | @fetches i' kid keys freshness hfreshness htrace hcache =>
      rw [htrace, List.getLast?_concat] at hlast
      unfold answer at hlast
      split at hlast <;> rcases hlast with h | h <;> cases h
  | fails he htrace hcache => exact hcache

/-- **The cache fails closed and is throttled, in every run.** Attempts are apart; a key that is
    served is the one the most recent successful fetch gave, and its time is not up or the call
    has fetched it itself; from the attempt of a fetch to its failure or its end, neither the
    keys nor their deadline change; and a call that asks for a key the cache holds in its time is
    served, never refused and never a reason to fetch. -/
theorem key_cache (C : JwksCrates) {F : Keyring} (hF : Reachable C F) :
    ((attempts F.trace).Pairwise fun t t' => t + unknownKidBackoff ≤ t') ∧
    (∀ before t i kid key after, F.trace = before ++ (t, .served i kid key) :: after →
      ∃ f, lastFetch before = some f ∧ f.keys.lookup kid = some key ∧
        (t < f.deadline ∨ f.caller = i)) ∧
    KeptBy F.cache (lastFetch F.trace) ∧
    (∀ i kid F₁ F₂ F₃, F.At i kid .waiting → Step C F F₁ → F₁.At i kid .fetching →
      Relation.ReflTransGen (Step C) F₁ F₂ → F₂.At i kid .fetching → Step C F₂ F₃ →
      GivesUp i F₂ F₃ →
      F₃.cache.keys = F.cache.keys ∧ F₃.cache.freshUntil = F.cache.freshUntil) ∧
    (∀ before t i kid after, F.trace = before ++ (t, .attempted i kid) :: after ∨
        F.trace = before ++ (t, .throttled i kid) :: after →
      ∀ f, lastFetch before = some f → t < f.deadline → f.keys.lookup kid = none) ∧
    ∀ i kid f key, F.At i kid .waiting → F.holder = none → lastFetch F.trace = some f →
      F.now < f.deadline → f.keys.lookup kid = some key →
      ∃ F', Step C F F' ∧ F'.trace = F.trace ++ [(F.now, .served i kid key)] := by
  have hagrees := reachable_agrees hF
  refine ⟨hagrees.spaced, fun before t i kid key after h => hagrees.right _ _ _ _ h, hagrees.kept,
    fun i kid F₁ F₂ F₃ hi hs₁ hi₁ hrun hi₂ hs₃ hgives => ?_,
    fun before t i kid after h => ?_, fun i kid f key hi hfree hf hfresh hkey => ?_⟩
  · have hlocked := locked_step (reachable_locked hF) hs₁
    have hcache₁ : F₁.cache.keys = F.cache.keys ∧ F₁.cache.freshUntil = F.cache.freshUntil := by
      rw [attempt_cache hi hs₁ hi₁]
      exact ⟨rfl, rfl⟩
    obtain ⟨-, huntouched⟩ := untouched_run hlocked (Or.inl ⟨hi₁, rfl⟩) hrun
    rcases huntouched with ⟨-, hcache₂⟩ | hended
    · rw [givesUp_cache hs₃ hgives, hcache₂]
      exact hcache₁
    · exact absurd (hi₂.same hended).2 nofun
  · rcases h with h | h
    · exact hagrees.right _ _ _ _ h
    · exact hagrees.right _ _ _ _ h
  · have hkept := hagrees.kept
    rw [hf] at hkept
    obtain ⟨hkeys, hdeadline, -⟩ := hkept
    have hfound : F.cache.start F.now kid = .found key :=
      KeyCache.start_found.mpr ⟨hdeadline ▸ hfresh, hkeys ▸ hkey⟩
    exact ⟨_, .serve F i kid key hi hfree hfound, rfl⟩

/-! A key set of one key, asked for twice. -/

namespace Sample

def modulus : List UInt8 := 128 :: List.replicate 254 0 ++ [1]

def jwk : GoogleJwk :=
  ⟨"RSA", "k", String.ofList (Base64Url.encode modulus), "AQAB", some "RS256", some "sig", none⟩

/-- A parser that reads one body. -/
def jwksCrates : JwksCrates where
  jwkSet := fun body => if body = utf8 "keys" then some [jwk] else none
  validKey := fun _ => true

def response : JwksResponse :=
  ⟨200, [("cache-control", utf8 "public, max-age=60")], none, utf8 "keys"⟩

theorem readKey_jwk : readKey jwksCrates jwk = some ⟨fromBytesBe modulus, 65537⟩ := by
  have hn : Base64Url.decode jwk.n.toList = some modulus := by
    rw [show jwk.n.toList = Base64Url.encode modulus from String.toList_ofList]
    decide +kernel
  have he : Base64Url.decode jwk.e.toList = some [1, 0, 1] := by decide
  have hlength : modulus.length = 256 := by decide +kernel
  have hsize : 2048 ≤ (fromBytesBe modulus).size ∧ (fromBytesBe modulus).size ≤ 8192 := by
    decide +kernel
  unfold readKey
  rw [if_neg (by decide), hn, he]
  simp only [Option.bind_eq_bind, Option.bind_some, hlength]
  rw [if_neg (by decide), if_neg]
  · rfl
  · simp [jwksCrates, hsize]

theorem fetch_response : fetchKeys jwksCrates true (some response) =
    .ok (AList.insert "k" ⟨fromBytesBe modulus, 65537⟩ ∅, 60) := by
  have hset : (boundedBody response maxJwksResponse).bind jwksCrates.jwkSet = some [jwk] := by
    have hbody : boundedBody response maxJwksResponse = some (utf8 "keys") := by decide
    rw [hbody]
    show (if utf8 "keys" = utf8 "keys" then some [jwk] else none) = some [jwk]
    exact if_pos rfl
  have hinsert : insertKey jwksCrates ∅ jwk =
      .ok (AList.insert "k" ⟨fromBytesBe modulus, 65537⟩ ∅) := by
    rw [insertKey, readKey_jwk]
    exact if_neg (AList.notMem_empty _)
  have hfreshness : cacheFreshness response.headers = 60 := by decide +kernel
  have hlimit : ¬([jwk].isEmpty = true ∨ [jwk].length > maxKeys) := by decide
  have hpermit : ¬(!true) = true := by decide
  have hstatus : ¬response.status ≠ 200 := by decide
  rw [fetchKeys, if_neg hpermit, if_neg hstatus, hset]
  dsimp only
  rw [if_neg hlimit, List.foldlM_cons, hinsert, hfreshness]
  rfl

theorem response_keys : ∃ keys key, fetchKeys jwksCrates true (some response) = .ok (keys, 60) ∧
    keys.lookup "k" = some key := ⟨_, _, fetch_response, AList.lookup_insert _⟩

/-- The second call comes half a minute after the fetch of the first. -/
theorem served_twice {keys : Keys} {key : RsaPublicKey}
    (hfetch : fetchKeys jwksCrates true (some response) = .ok (keys, 60))
    (hkey : keys.lookup "k" = some key) : ∃ F, Reachable jwksCrates F ∧
      F.trace = [(0, .attempted 0 "k"), (0, .fetched 0 keys 60), (0, .served 0 "k" key)] ++
        (30 * instantSecond, .served 1 "k" key) :: [] := by
  have hanswer : answer 0 "k" keys = .served 0 "k" key := by rw [answer, hkey]
  have hcalled := (Reachable.new (C := jwksCrates) 0).step (.call _ "k")
  have hattempted := hcalled.step (.attempt _ 0 "k" rfl rfl rfl)
  have hfetched := hattempted.step (.succeed _ 0 "k" true (some response) keys 60 rfl hfetch)
  have hpause : (0 : Instant) ≤ 30 * instantSecond := by decide
  have hlater := (hfetched.step (.call _ "k")).step (.tick _ (30 * instantSecond) hpause)
  refine ⟨_, hlater.step (.serve _ 1 "k" key rfl rfl (KeyCache.start_found.mpr ⟨?_, hkey⟩)), ?_⟩
  · show (30 * instantSecond : Instant) < 0 + (60 : Nat) * instantSecond
    decide
  · rw [← hanswer]
    rfl

end Sample

/-- A key that is served again without a fetch. -/
theorem key_cache_again : ∃ F keys key, Reachable Sample.jwksCrates F ∧
    F.trace = [(0, .attempted 0 "k"), (0, .fetched 0 keys 60), (0, .served 0 "k" key)] ++
      (30 * instantSecond, .served 1 "k" key) :: [] ∧
    ∃ f : Fetch, f.caller = 0 ∧ f.keys.lookup "k" = some key ∧ 30 * instantSecond < f.deadline := by
  obtain ⟨keys, key, hfetch, hkey⟩ := Sample.response_keys
  obtain ⟨F, hF, htrace⟩ := Sample.served_twice hfetch hkey
  obtain ⟨f, hf, hserved, htime⟩ := (key_cache Sample.jwksCrates hF).2.1 _ _ _ _ _ _ htrace
  cases hf
  exact ⟨F, keys, key, hF, htrace, _, rfl, hserved, htime.resolve_right nofun⟩

end Keyring

end Google

end Eri
