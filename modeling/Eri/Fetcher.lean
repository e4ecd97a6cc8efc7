/-
  File:      Eri/Fetcher.lean
  Subject:   The shared metadata fetcher (src/cimd.rs, `CimdFetcher::fetch_leased`), any number
             of its calls interleaved.

  A call looks into the cache, takes a permit, reserves its client id, fetches, publishes what
  may be kept, gives up the reservation and the permit and returns. Between two steps of a call
  others make theirs; a call can be dropped wherever it waits: for the cache, for the network,
  and for the cache again with a document in hand.

  * `Fetcher`, `Fetcher.Step`, `Fetcher.Reachable`;
  * `Fetcher.moves` -- what a step of one call does to the permits and the reservations;
  * `fetcher_protocol` -- **what the permits, the reservations and the cache guarantee in every
    run**.
-/
import Eri.Documents
import Mathlib.Data.List.AList
import Mathlib.Data.Finset.Insert

namespace Eri

/-! ## 1. Calls -/

/-- A second of the monotonic clock. -/
def instantSecond : Instant := 1000000000

/-- `NON_CACHEABLE_LEASE`, in seconds. -/
def nonCacheableLease : Nat := 5

def maxCacheEntries : Nat := 128

/-- The permits of `Semaphore::new(8)`. -/
def maxFetches : Nat := 8

/-- An `Arc` of a leased document: two of them are the same when the same call made them.
    `since` is when the fetch of the document started. -/
structure Snapshot where
  metadata : LeasedClientMetadata
  origin : Nat
  since : Instant
  deriving DecidableEq

def Snapshot.isFresh (s : Snapshot) (now : Instant) : Bool := s.metadata.isFresh now

/-- What a call came to. -/
inductive FetchResult where
  | hit (s : Snapshot)
  | fetched (s : Snapshot)
  | failed (e : CimdError)
  | cancelled
  deriving DecidableEq

/-- The document a caller got. -/
def FetchResult.snapshot : FetchResult → Option Snapshot
  | .hit s | .fetched s => some s
  | .failed _ | .cancelled => none

/-- Where a call stands: before its lookup; after a lookup that found nothing fresh; with a
    permit; with its client id reserved; in the fetch that started at a moment; with a document
    to publish; on its way out with its reservation, with its permit only, and out. -/
inductive Phase where
  | called
  | missed
  | permitted
  | reserved
  | fetching (since : Instant)
  | publishing (s : Snapshot)
  | leaving (r : FetchResult)
  | landed (r : FetchResult)
  | ended (r : FetchResult)
  deriving DecidableEq

/-- The call holds its client id in `in_flight`. -/
def Phase.flies : Phase → Bool
  | .reserved | .fetching _ | .publishing _ | .leaving _ => true
  | _ => false

/-- The call holds a permit. -/
def Phase.hasPermit : Phase → Bool
  | .permitted | .landed _ => true
  | p => p.flies

/-- The call has begun its fetch, or got past it. -/
def Phase.started : Phase → Bool
  | .called | .missed | .permitted | .reserved => false
  | _ => true

/-- How a call ends, once that is settled. -/
def Phase.result : Phase → Option FetchResult
  | .leaving r | .landed r | .ended r => some r
  | _ => none

structure FetchCall where
  id : String
  phase : Phase
  deriving DecidableEq

/-- What happens, and to which client id: a call begins, its fetch starts, it has a document
    with its lifetime, it writes the cache, it returns. -/
inductive FetchEvent where
  | began (i : Nat) (id : String)
  | started (i : Nat) (id : String)
  | finished (i : Nat) (id : String) (s : Snapshot) (ttl : Option Nat)
  | wrote (i : Nat) (id : String) (s : Snapshot)
  | returned (i : Nat) (id : String) (r : FetchResult)
  deriving DecidableEq

abbrev FetchCache : Type := AList fun _ : String => Snapshot

/-- `HashMap::retain`. -/
def FetchCache.retain (p : String → Snapshot → Bool) (cache : FetchCache) : FetchCache :=
  ⟨cache.entries.filter fun e => p e.1 e.2, cache.nodupKeys.sublist List.filter_sublist⟩

/-- Room for one more: a full cache gives up an entry. -/
def FetchCache.makeRoom (victim : String) (cache : FetchCache) : FetchCache :=
  if maxCacheEntries ≤ cache.entries.length then cache.erase victim else cache

/-- The fetcher and its calls; `trace` is what happened so far, and when. -/
structure Fetcher where
  now : Instant
  calls : List FetchCall
  permits : Nat
  inFlight : Finset String
  cache : FetchCache
  trace : List (Instant × FetchEvent)

namespace Fetcher

/-- `CimdFetcher::new`. -/
def new (now : Instant) : Fetcher := ⟨now, [], maxFetches, ∅, ∅, []⟩

/-- Call `i` asks for the client `id` and stands at `p`. -/
def At (F : Fetcher) (i : Nat) (id : String) (p : Phase) : Prop := F.calls[i]? = some ⟨id, p⟩

/-- Call `i` goes on to the phase `p`. -/
def move (F : Fetcher) (i : Nat) (id : String) (p : Phase) : Fetcher :=
  { F with calls := F.calls.set i ⟨id, p⟩ }

/-- Something happens now. -/
def record (F : Fetcher) (e : FetchEvent) : Fetcher := { F with trace := F.trace ++ [(F.now, e)] }

/-! ## 2. Steps -/

variable (C : Crates)

/-- **One step**: time passes, a call begins, or a call goes on. The critical sections of the
    cache are steps of their own, and so are the two releases at the end, in the order in which
    the guards are dropped. In `publish` each entry is looked at at a moment of its own, until
    `later`. -/
inductive Step : Fetcher → Fetcher → Prop where
  | tick (F : Fetcher) (later : Instant) (h : F.now ≤ later) : Step F { F with now := later }
  | begin (F : Fetcher) (id : String) :
      Step F { F.record (.began F.calls.length id) with calls := F.calls ++ [⟨id, .called⟩] }
  | refuse (F : Fetcher) (i : Nat) (id : String) (e : CimdError) (hi : F.At i id .called)
      (he : Cimd.validateClientId C id = .error e) :
      Step F ((F.move i id (.ended (.failed e))).record (.returned i id (.failed e)))
  | hit (F : Fetcher) (i : Nat) (id : String) (u : ParsedUrl × String × Nat) (s : Snapshot)
      (hi : F.At i id .called) (hu : Cimd.validateClientId C id = .ok u)
      (hs : F.cache.lookup id = some s) (hfresh : s.isFresh F.now = true) :
      Step F ((F.move i id (.ended (.hit s))).record (.returned i id (.hit s)))
  | miss (F : Fetcher) (i : Nat) (id : String) (u : ParsedUrl × String × Nat)
      (hi : F.At i id .called) (hu : Cimd.validateClientId C id = .ok u)
      (hs : ∀ s, F.cache.lookup id = some s → s.isFresh F.now = false) :
      Step F (F.move i id .missed)
  | busy (F : Fetcher) (i : Nat) (id : String) (hi : F.At i id .missed) (h : F.permits = 0) :
      Step F ((F.move i id (.ended (.failed .busy))).record (.returned i id (.failed .busy)))
  | acquire (F : Fetcher) (i : Nat) (id : String) (n : Nat) (hi : F.At i id .missed)
      (h : F.permits = n + 1) : Step F { F.move i id .permitted with permits := n }
  | taken (F : Fetcher) (i : Nat) (id : String) (hi : F.At i id .permitted)
      (h : id ∈ F.inFlight) : Step F (F.move i id (.landed (.failed .busy)))
  | reserve (F : Fetcher) (i : Nat) (id : String) (hi : F.At i id .permitted)
      (h : id ∉ F.inFlight) :
      Step F { F.move i id .reserved with inFlight := insert id F.inFlight }
  | start (F : Fetcher) (i : Nat) (id : String) (hi : F.At i id .reserved) :
      Step F ((F.move i id (.fetching F.now)).record (.started i id))
  | answer (F : Fetcher) (i : Nat) (id : String) (since : Instant) (u : ParsedUrl)
      (host : String) (port : Nat) (resolved : Except CimdError (List Cimd.SocketAddr))
      (fetched : Except CimdError Cimd.ResponseDocument) (document : ClientMetadataDocument)
      (ttl : Option Nat) (s : Snapshot) (hi : F.At i id (.fetching since))
      (hu : Cimd.validateClientId C id = .ok (u, host, port))
      (hread : Cimd.readResponse C id port resolved fetched = .ok (document, ttl))
      (hs : s = ⟨⟨document, F.now + ttl.getD nonCacheableLease * instantSecond⟩, i, since⟩) :
      Step F ((F.move i id (if ttl.isSome then .publishing s else .leaving (.fetched s))).record
        (.finished i id s ttl))
  | fail (F : Fetcher) (i : Nat) (id : String) (since : Instant) (u : ParsedUrl)
      (host : String) (port : Nat) (resolved : Except CimdError (List Cimd.SocketAddr))
      (fetched : Except CimdError Cimd.ResponseDocument) (e : CimdError)
      (hi : F.At i id (.fetching since))
      (hu : Cimd.validateClientId C id = .ok (u, host, port))
      (hread : Cimd.readResponse C id port resolved fetched = .error e) :
      Step F (F.move i id (.leaving (.failed e)))
  | timeout (F : Fetcher) (i : Nat) (id : String) (since : Instant)
      (hi : F.At i id (.fetching since)) :
      Step F (F.move i id (.leaving (.failed .fetchFailed)))
  | publish (F : Fetcher) (i : Nat) (id : String) (s : Snapshot) (victim : String)
      (seen : String → Instant) (later : Instant) (hi : F.At i id (.publishing s))
      (hseen : ∀ k, F.now ≤ seen k ∧ seen k ≤ later)
      (hvictim : maxCacheEntries ≤ (F.cache.retain fun k s => s.isFresh (seen k)).entries.length →
        victim ∈ F.cache.retain fun k s => s.isFresh (seen k)) :
      Step F { (F.move i id (.leaving (.fetched s))).record (.wrote i id s) with
        now := later
        cache := ((F.cache.retain fun k s => s.isFresh (seen k)).makeRoom victim).insert id s }
  | land (F : Fetcher) (i : Nat) (id : String) (r : FetchResult) (hi : F.At i id (.leaving r)) :
      Step F { F.move i id (.landed r) with inFlight := F.inFlight.erase id }
  | leave (F : Fetcher) (i : Nat) (id : String) (r : FetchResult) (hi : F.At i id (.landed r)) :
      Step F { (F.move i id (.ended r)).record (.returned i id r) with permits := F.permits + 1 }
  | cancelLookup (F : Fetcher) (i : Nat) (id : String) (hi : F.At i id .called) :
      Step F ((F.move i id (.ended .cancelled)).record (.returned i id .cancelled))
  | cancel (F : Fetcher) (i : Nat) (id : String) (p : Phase) (hi : F.At i id p)
      (hp : (∃ since, p = .fetching since) ∨ ∃ s, p = .publishing s) :
      Step F (F.move i id (.leaving .cancelled))

/-- The states a fetcher goes through from its creation. -/
inductive Reachable : Fetcher → Prop where
  | new (now : Instant) : Reachable (new now)
  | step {F F' : Fetcher} (h : Reachable F) (hs : Step C F F') : Reachable F'

variable {C} {F F' : Fetcher}

/-! ## 3. What a step moves -/

/-- A call goes on: what is settled stays. -/
structure Onto (p q : Phase) : Prop where
  started : p.started → q.started
  result : ∀ r, p.result = some r → q.result = some r
  ended : ∀ r, p = .ended r → q = .ended r

theorem Onto.refl (p : Phase) : Onto p p := ⟨id, fun _ => id, fun _ => id⟩

/-- Call `i` goes on from `a` to `b`: the permit and the reservation it takes or gives up. -/
structure Moves (F F' : Fetcher) (i : Nat) (id : String) (a b : Phase) : Prop where
  stands : F.At i id a
  calls : F'.calls = F.calls.set i ⟨id, b⟩
  onto : Onto a b
  permits : F'.permits + b.hasPermit.toNat = F.permits + a.hasPermit.toNat
  same : b.flies = a.flies → F'.inFlight = F.inFlight
  taken : a.flies = false → b.flies = true →
    id ∉ F.inFlight ∧ F'.inFlight = insert id F.inFlight
  given : a.flies = true → b.flies = false → F'.inFlight = F.inFlight.erase id
  now : F.now ≤ F'.now

/-- A step that neither takes nor gives up anything. -/
theorem Moves.keep {i : Nat} {id : String} {a b : Phase} (hi : F.At i id a)
    (hcalls : F'.calls = F.calls.set i ⟨id, b⟩) (honto : Onto a b)
    (hpermit : b.hasPermit = a.hasPermit) (hflies : b.flies = a.flies)
    (hpermits : F'.permits = F.permits) (hinFlight : F'.inFlight = F.inFlight)
    (hnow : F.now ≤ F'.now) : Moves F F' i id a b where
  stands := hi
  calls := hcalls
  onto := honto
  permits := by rw [hpermits, hpermit]
  same _ := hinFlight
  taken ha hb := absurd (hflies.symm.trans hb) (by rw [ha]; decide)
  given ha hb := absurd (hflies.symm.trans hb) (by rw [ha]; decide)
  now := hnow

/-- A call that was not settled. -/
theorem Onto.of_open {a b : Phase} (ha : a.result = none) (h : a.started → b.started) :
    Onto a b where
  started := h
  result r hr := by
    rw [ha] at hr
    cases hr
  ended r hr := by
    rw [hr] at ha
    cases ha

/-- What a step of call `i` is about, with what it adds to the trace. -/
inductive Acts (C : Crates) (F F' : Fetcher) (i : Nat) (id : String) :
    Phase → Phase → List FetchEvent → Prop where
  | waits {a b : Phase} (hb : b = .missed ∨ b = .permitted ∨ b = .reserved)
      (hcache : F'.cache = F.cache) : Acts C F F' i id a b []
  | gives {a b : Phase} {r : FetchResult} (hr : r.snapshot = none)
      (hb : b = .leaving r ∨ b = .landed r) (hcache : F'.cache = F.cache) :
      Acts C F F' i id a b []
  | lands {r : FetchResult} (hcache : F'.cache = F.cache) :
      Acts C F F' i id (.leaving r) (.landed r) []
  | starts (hcache : F'.cache = F.cache) :
      Acts C F F' i id .reserved (.fetching F.now) [.started i id]
  | answers {since : Instant} {s : Snapshot} {response : Cimd.ResponseDocument}
      {ttl : Option Nat} {b : Phase} (horigin : s.origin = i) (hsince : s.since = since)
      (hvalid : Cimd.validateDocument C id response.body = .ok s.metadata.document)
      (httl : Cimd.cacheTtl response.cacheControl response.age = ttl)
      (hdeadline : s.metadata.validUntil =
        F.now + ttl.getD nonCacheableLease * instantSecond)
      (hb : b = if ttl.isSome then .publishing s else .leaving (.fetched s))
      (hcache : F'.cache = F.cache) :
      Acts C F F' i id (.fetching since) b [.finished i id s ttl]
  | publishes {s : Snapshot} {victim : String} {seen : String → Instant}
      (hseen : ∀ k, F.now ≤ seen k ∧ seen k ≤ F'.now)
      (hvictim : maxCacheEntries ≤ (F.cache.retain fun k s => s.isFresh (seen k)).entries.length →
        victim ∈ F.cache.retain fun k s => s.isFresh (seen k))
      (hcache : F'.cache =
        ((F.cache.retain fun k s => s.isFresh (seen k)).makeRoom victim).insert id s) :
      Acts C F F' i id (.publishing s) (.leaving (.fetched s)) [.wrote i id s]
  | returns {a : Phase} {r : FetchResult}
      (hr : a = .landed r ∨ r.snapshot = none ∨
        ∃ s, r = .hit s ∧ F.cache.lookup id = some s ∧ s.isFresh F.now = true)
      (hcache : F'.cache = F.cache) : Acts C F F' i id a (.ended r) [.returned i id r]

/-- A step of one call. -/
structure Turn (C : Crates) (F F' : Fetcher) (i : Nat) (id : String) (a b : Phase)
    (es : List FetchEvent) : Prop extends Moves F F' i id a b where
  trace : F'.trace = F.trace ++ es.map fun e => (F.now, e)
  acts : Acts C F F' i id a b es

/-- A step that settles nothing it would have to keep, and holds what it held. -/
theorem Turn.keep {i : Nat} {id : String} {a b : Phase} {es : List FetchEvent}
    (hi : F.At i id a) (hacts : Acts C F F' i id a b es)
    (hcalls : F'.calls = F.calls.set i ⟨id, b⟩)
    (htrace : F'.trace = F.trace ++ es.map fun e => (F.now, e)) (ha : a.result = none)
    (hstarted : a.started → b.started) (hpermit : b.hasPermit = a.hasPermit)
    (hflies : b.flies = a.flies) (hpermits : F'.permits = F.permits)
    (hinFlight : F'.inFlight = F.inFlight) (hnow : F.now ≤ F'.now) : Turn C F F' i id a b es :=
  { Moves.keep hi hcalls (.of_open ha hstarted) hpermit hflies hpermits hinFlight hnow with
    trace := htrace, acts := hacts }

/-- **What a step does**: time passes, a call begins, or one call has its turn. -/
theorem step_cases (h : Step C F F') :
    (∃ later, F.now ≤ later ∧ F' = { F with now := later }) ∨
    (∃ id, F' = { F.record (.began F.calls.length id) with calls := F.calls ++ [⟨id, .called⟩] }) ∨
    ∃ i id a b es, Turn C F F' i id a b es := by
  have hnow : F.now ≤ F.now := Int.le_refl _
  cases h with
  | tick later h => exact Or.inl ⟨later, h, rfl⟩
  | begin id => exact Or.inr (Or.inl ⟨id, rfl⟩)
  | refuse i id e hi he =>
      exact Or.inr (Or.inr ⟨i, id, _, _, _, .keep hi (.returns (Or.inr (Or.inl rfl)) rfl) rfl rfl
        rfl (fun _ => rfl) rfl rfl rfl rfl hnow⟩)
  | hit i id u s hi hu hs hfresh =>
      exact Or.inr (Or.inr ⟨i, id, _, _, _, .keep hi
        (.returns (Or.inr (Or.inr ⟨s, rfl, hs, hfresh⟩)) rfl) rfl rfl
        rfl (fun _ => rfl) rfl rfl rfl rfl hnow⟩)
  | miss i id u hi hu hs =>
      exact Or.inr (Or.inr ⟨i, id, _, _, _, .keep hi (.waits (Or.inl rfl) rfl) rfl
        (List.append_nil _).symm rfl nofun rfl rfl rfl rfl hnow⟩)
  | busy i id hi h =>
      exact Or.inr (Or.inr ⟨i, id, _, _, _, .keep hi (.returns (Or.inr (Or.inl rfl)) rfl) rfl rfl
        rfl (fun _ => rfl) rfl rfl rfl rfl hnow⟩)
  | acquire i id n hi h =>
      exact Or.inr (Or.inr ⟨i, id, _, _, _,
        { stands := hi, calls := rfl, onto := .of_open rfl nofun, permits := h.symm
          same := fun _ => rfl, taken := nofun, given := nofun, now := hnow
          trace := (List.append_nil _).symm, acts := .waits (Or.inr (Or.inl rfl)) rfl }⟩)
  | taken i id hi h =>
      exact Or.inr (Or.inr ⟨i, id, _, _, _, .keep hi (.gives rfl (Or.inr rfl) rfl) rfl
        (List.append_nil _).symm rfl (fun _ => rfl) rfl rfl rfl rfl hnow⟩)
  | reserve i id hi h =>
      exact Or.inr (Or.inr ⟨i, id, _, _, _,
        { stands := hi, calls := rfl, onto := .of_open rfl nofun, permits := rfl
          same := nofun, taken := fun _ _ => ⟨h, rfl⟩, given := nofun, now := hnow
          trace := (List.append_nil _).symm, acts := .waits (Or.inr (Or.inr rfl)) rfl }⟩)
  | start i id hi =>
      exact Or.inr (Or.inr ⟨i, id, _, _, _, .keep hi (.starts rfl) rfl rfl rfl (fun _ => rfl) rfl
        rfl rfl rfl hnow⟩)
  | answer i id since u host port resolved fetched document ttl s hi hu hread hs =>
      obtain ⟨response, _, hvalid, httl⟩ := Cimd.readResponse_ok hread
      subst hs
      refine Or.inr (Or.inr ⟨i, id, _, _, _, .keep hi (.answers rfl rfl hvalid httl rfl rfl rfl)
        rfl rfl rfl (fun _ => ?_) ?_ ?_ rfl rfl hnow⟩)
      all_goals cases ttl <;> rfl
  | fail i id since u host port resolved fetched e hi hu hread =>
      exact Or.inr (Or.inr ⟨i, id, _, _, _, .keep hi (.gives rfl (Or.inl rfl) rfl) rfl
        (List.append_nil _).symm rfl (fun _ => rfl) rfl rfl rfl rfl hnow⟩)
  | timeout i id since hi =>
      exact Or.inr (Or.inr ⟨i, id, _, _, _, .keep hi (.gives rfl (Or.inl rfl) rfl) rfl
        (List.append_nil _).symm rfl (fun _ => rfl) rfl rfl rfl rfl hnow⟩)
  | publish i id s victim seen later hi hseen hvictim =>
      exact Or.inr (Or.inr ⟨i, id, _, _, _, .keep hi (.publishes hseen hvictim rfl) rfl rfl rfl
        (fun _ => rfl) rfl rfl rfl rfl (Int.le_trans (hseen id).1 (hseen id).2)⟩)
  | land i id r hi =>
      exact Or.inr (Or.inr ⟨i, id, _, _, _,
        { stands := hi, calls := rfl, onto := ⟨fun _ => rfl, fun _ h => h, nofun⟩, permits := rfl
          same := nofun, taken := nofun, given := fun _ _ => rfl, now := hnow
          trace := (List.append_nil _).symm, acts := .lands rfl }⟩)
  | leave i id r hi =>
      exact Or.inr (Or.inr ⟨i, id, _, _, _,
        { stands := hi, calls := rfl, onto := ⟨fun _ => rfl, fun _ h => h, nofun⟩, permits := rfl
          same := fun _ => rfl, taken := nofun, given := nofun, now := hnow
          trace := rfl, acts := .returns (Or.inl rfl) rfl }⟩)
  | cancelLookup i id hi =>
      exact Or.inr (Or.inr ⟨i, id, _, _, _, .keep hi (.returns (Or.inr (Or.inl rfl)) rfl) rfl rfl
        rfl (fun _ => rfl) rfl rfl rfl rfl hnow⟩)
  | cancel i id p hi hp =>
      obtain ⟨since, rfl⟩ | ⟨s, rfl⟩ := hp
      · exact Or.inr (Or.inr ⟨i, id, _, _, _, .keep hi (.gives rfl (Or.inl rfl) rfl) rfl
          (List.append_nil _).symm rfl (fun _ => rfl) rfl rfl rfl rfl hnow⟩)
      · exact Or.inr (Or.inr ⟨i, id, _, _, _, .keep hi (.gives rfl (Or.inl rfl) rfl) rfl
          (List.append_nil _).symm rfl (fun _ => rfl) rfl rfl rfl rfl hnow⟩)

/-! ## 4. Permits and reservations -/

/-- **The permits and the reservations are those of the calls that hold one.** -/
structure Resources (F : Fetcher) : Prop where
  permits : F.permits + F.calls.countP (·.phase.hasPermit) = maxFetches
  reserved : ∀ id, id ∈ F.inFlight ↔ ∃ i p, F.At i id p ∧ p.flies = true
  single : ∀ i j id p q, F.At i id p → F.At j id q → p.flies = true → q.flies = true → i = j

theorem at_unique {i : Nat} {id id' : String} {p q : Phase} (h : F.At i id p)
    (h' : F.At i id' q) : id = id' ∧ p = q := by
  have e := Option.some.inj (h.symm.trans h')
  cases e
  exact ⟨rfl, rfl⟩

theorem at_lt {i : Nat} {id : String} {p : Phase} (h : F.At i id p) : i < F.calls.length :=
  (List.getElem?_eq_some_iff.mp h).1

/-- Where calls stand after one has begun. -/
theorem begun_at {j : Nat} {id id' : String} {p : Phase}
    (h : F'.calls = F.calls ++ [⟨id, .called⟩]) :
    F'.At j id' p ↔ F.At j id' p ∨ (j = F.calls.length ∧ id' = id ∧ p = .called) := by
  unfold Fetcher.At
  rw [h]
  rcases Nat.lt_trichotomy j F.calls.length with hlt | rfl | hgt
  · rw [List.getElem?_append_left hlt]
    exact ⟨Or.inl, fun h => h.resolve_right fun h => absurd h.1 (Nat.ne_of_lt hlt)⟩
  · rw [List.getElem?_append_right (Nat.le_refl _), Nat.sub_self,
      List.getElem?_eq_none (Nat.le_refl _)]
    constructor
    · rintro h
      cases h
      exact Or.inr ⟨rfl, rfl, rfl⟩
    · rintro (h | ⟨_, rfl, rfl⟩)
      · cases h
      · rfl
  · rw [List.getElem?_eq_none (by rw [List.length_append]; exact hgt), List.getElem?_eq_none hgt.le]
    exact ⟨nofun, fun h => h.elim nofun fun h => absurd h.1 (Nat.ne_of_gt hgt)⟩

section Moves

variable {i j : Nat} {id id' : String} {a b p : Phase}

theorem Moves.at_self (h : Moves F F' i id a b) : F'.At i id b := by
  unfold Fetcher.At
  rw [h.calls, List.getElem?_set_self (at_lt h.stands)]

theorem Moves.at_ne (h : Moves F F' i id a b) (hne : j ≠ i) : F'.At j id' p ↔ F.At j id' p := by
  unfold Fetcher.At
  rw [h.calls, List.getElem?_set_ne hne.symm]

/-- Where a call stands after the step of call `i`. -/
theorem Moves.at_cases (h : Moves F F' i id a b) (hj : F'.At j id' p) :
    (j = i ∧ id' = id ∧ p = b) ∨ (j ≠ i ∧ F.At j id' p) := by
  by_cases hji : j = i
  · subst hji
    obtain ⟨rfl, rfl⟩ := at_unique hj h.at_self
    exact Or.inl ⟨rfl, rfl, rfl⟩
  · exact Or.inr ⟨hji, (h.at_ne hji).mp hj⟩

/-- Every call gets on. -/
theorem Moves.at_onto (h : Moves F F' i id a b) (hj : F.At j id' p) :
    ∃ q, F'.At j id' q ∧ Onto p q := by
  by_cases hji : j = i
  · subst hji
    obtain ⟨rfl, rfl⟩ := at_unique hj h.stands
    exact ⟨b, h.at_self, h.onto⟩
  · exact ⟨p, (h.at_ne hji).mpr hj, .refl p⟩

theorem countP_move (h : Moves F F' i id a b) :
    F'.calls.countP (·.phase.hasPermit) + a.hasPermit.toNat =
      F.calls.countP (·.phase.hasPermit) + b.hasPermit.toNat := by
  obtain ⟨hlt, he⟩ := List.getElem?_eq_some_iff.mp h.stands
  have hle : (if a.hasPermit = true then 1 else 0) ≤ F.calls.countP (·.phase.hasPermit) := by
    split
    · exact List.countP_pos_iff.mpr ⟨_, List.getElem_mem hlt, by rwa [he]⟩
    · exact Nat.zero_le _
  rw [h.calls, List.countP_set hlt, he]
  cases ha : a.hasPermit <;> cases hb : b.hasPermit <;> simp_all

/-- Another client id keeps its reservation. -/
theorem Moves.mem_ne (h : Moves F F' i id a b) {x : String} (hx : x ≠ id) :
    x ∈ F'.inFlight ↔ x ∈ F.inFlight := by
  cases ha : a.flies <;> cases hb : b.flies
  · rw [h.same (hb.trans ha.symm)]
  · rw [(h.taken ha hb).2, Finset.mem_insert, or_iff_right hx]
  · rw [h.given ha hb, Finset.mem_erase, and_iff_right hx]
  · rw [h.same (hb.trans ha.symm)]

/-- The client id of the call is reserved exactly while the call, or another one, flies. -/
theorem Moves.mem_self (h : Moves F F' i id a b) (hF : Resources F) :
    id ∈ F'.inFlight ↔ b.flies = true ∨ ∃ j p, j ≠ i ∧ F.At j id p ∧ p.flies = true := by
  have hothers : a.flies = true → ¬∃ j p, j ≠ i ∧ F.At j id p ∧ p.flies = true := by
    rintro ha ⟨j, p, hne, hj, hp⟩
    exact hne (hF.single j i id p a hj h.stands hp ha)
  have hold := hF.reserved id
  cases ha : a.flies <;> cases hb : b.flies
  · rw [h.same (hb.trans ha.symm), hold]
    refine ⟨fun ⟨j, p, hj, hp⟩ => Or.inr ⟨j, p, ?_, hj, hp⟩, ?_⟩
    · rintro rfl
      rw [(at_unique hj h.stands).2, ha] at hp
      cases hp
    · rintro (hno | ⟨j, p, _, hj, hp⟩)
      · cases hno
      · exact ⟨j, p, hj, hp⟩
  · rw [(h.taken ha hb).2]
    exact ⟨fun _ => Or.inl rfl, fun _ => Finset.mem_insert_self ..⟩
  · rw [h.given ha hb]
    refine ⟨fun hmem => absurd rfl (Finset.mem_erase.mp hmem).1, ?_⟩
    rintro (hno | hother)
    · cases hno
    · exact absurd hother (hothers ha)
  · rw [h.same (hb.trans ha.symm), hold]
    exact ⟨fun _ => Or.inl rfl, fun _ => ⟨i, a, h.stands, ha⟩⟩

/-- While the call flies no other one does for its client id. -/
theorem Moves.alone (h : Moves F F' i id a b) (hF : Resources F) (hb : b.flies = true)
    (hj : F.At j id p) (hp : p.flies = true) : j = i := by
  cases ha : a.flies
  · exact absurd ((hF.reserved id).mpr ⟨j, p, hj, hp⟩) (h.taken ha hb).1
  · exact hF.single j i id p a hj h.stands hp ha

theorem resources_moves (h : Moves F F' i id a b) (hF : Resources F) : Resources F' where
  permits := by
    have hcount := countP_move h
    have hpermits := h.permits
    have hold := hF.permits
    omega
  reserved x := by
    by_cases hx : x = id
    · subst hx
      rw [h.mem_self hF]
      constructor
      · rintro (hb | ⟨j, p, hne, hj, hp⟩)
        · exact ⟨i, b, h.at_self, hb⟩
        · exact ⟨j, p, (h.at_ne hne).mpr hj, hp⟩
      · rintro ⟨j, p, hj, hp⟩
        rcases h.at_cases hj with ⟨rfl, _, rfl⟩ | ⟨hne, hj⟩
        · exact Or.inl hp
        · exact Or.inr ⟨j, p, hne, hj, hp⟩
    · rw [h.mem_ne hx, hF.reserved x]
      constructor
      · rintro ⟨j, p, hj, hp⟩
        refine ⟨j, p, (h.at_ne ?_).mpr hj, hp⟩
        rintro rfl
        exact hx (at_unique hj h.stands).1
      · rintro ⟨j, p, hj, hp⟩
        rcases h.at_cases hj with ⟨_, hid, _⟩ | ⟨_, hj⟩
        · exact absurd hid hx
        · exact ⟨j, p, hj, hp⟩
  single j k x p q hj hk hp hq := by
    rcases h.at_cases hj with ⟨hji, hx, hpb⟩ | ⟨hjne, hj'⟩ <;>
      rcases h.at_cases hk with ⟨hki, hx', hqb⟩ | ⟨hkne, hk'⟩
    · exact hji.trans hki.symm
    · subst hx hpb
      exact absurd (h.alone hF hp hk' hq) hkne
    · subst hx' hqb
      exact absurd (h.alone hF hq hj' hp) hjne
    · exact hF.single j k x p q hj' hk' hp hq

end Moves

theorem resources_step (h : Step C F F') (hF : Resources F) : Resources F' := by
  rcases step_cases h with ⟨later, _, rfl⟩ | ⟨id, rfl⟩ | ⟨i, id, a, b, es, hturn⟩
  · exact ⟨hF.permits, hF.reserved, hF.single⟩
  · -- a call that has just begun holds nothing
    have hat : ∀ j id' p, Fetcher.At { F.record (.began F.calls.length id) with
        calls := F.calls ++ [⟨id, .called⟩] } j id' p ∧ p.flies = true ↔
        F.At j id' p ∧ p.flies = true := by
      intro j id' p
      refine ⟨fun ⟨hj, hp⟩ => ?_, fun ⟨hj, hp⟩ => ⟨(begun_at rfl).mpr (Or.inl hj), hp⟩⟩
      rcases (begun_at rfl).mp hj with hj | ⟨_, _, rfl⟩
      · exact ⟨hj, hp⟩
      · cases hp
    refine ⟨?_, fun x => ?_, fun i j x p q hi hj hp hq => ?_⟩
    · rw [← hF.permits, List.countP_append]
      rfl
    · simp only [hat]
      exact hF.reserved x
    · exact hF.single i j x p q ((hat ..).mp ⟨hi, hp⟩).1 ((hat ..).mp ⟨hj, hq⟩).1 hp hq
  · exact resources_moves hturn.toMoves hF

theorem resources_reachable (h : Reachable C F) : Resources F := by
  induction h with
  | new now =>
      refine ⟨rfl, fun id => ⟨fun h => absurd h (Finset.notMem_empty id), ?_⟩, ?_⟩
      · rintro ⟨i, p, hi, _⟩
        cases hi
      · intro i j id p q hi
        cases hi
  | step _ hs ih => exact resources_step hs ih

end Fetcher

/-! ## 5. Runs by hand -/

namespace Sample

open Fetcher

def metadataId : String := "https://client.example.org/metadata.json"

def callbackUri : String := "https://client.example.org/callback"

/-- A URL of the client's host. -/
def clientUrl (raw path : String) : ParsedUrl where
  scheme := "https"
  username := ""
  password := none
  host := some (.domain "client.example.org")
  path := path
  query := none
  fragment := none
  cannotBeABase := false
  asStr := raw
  port := none

def metadataUrl (raw : String) : Option ParsedUrl :=
  if raw = metadataId then some (clientUrl raw "/metadata.json")
  else if raw = callbackUri then some (clientUrl raw "/callback") else none

/-- The crates, on the two URLs of a document and its body. -/
def crates : Crates where
  digest _ := Vector.replicate 32 0
  url := metadataUrl
  parse raw := (metadataUrl raw).map ParsedUrl.toUrl
  join _ _ := none
  hashText _ := 0
  members body :=
    if body = [] then
      some [("client_id", .str metadataId), ("client_name", .str "Client"),
        ("token_endpoint_auth_method", .str "none"), ("redirect_uris", .arr [.str callbackUri])]
    else none
  parse_url _ := rfl

def document : ClientMetadataDocument := ⟨metadataId, "Client", [callbackUri], false⟩

def response (cacheControl : String) : Cimd.ResponseDocument :=
  ⟨200, some "application/json", some [cacheControl], 0, []⟩

theorem valid_metadataId : Cimd.validateClientId crates metadataId =
    .ok (clientUrl metadataId "/metadata.json", "client.example.org", 443) := by
  rfl
/-- The answer of the resolver. -/
def resolved : Except CimdError (List Cimd.SocketAddr) := .ok [⟨.v4 0x08080808#32, 443⟩]

/-- One fetch of the document, from its call to its end, with a response that may be kept. -/
theorem kept : Cimd.readResponse crates metadataId 443 resolved (.ok (response "max-age=60")) =
    .ok (document, some 60) := rfl

theorem notKept : Cimd.readResponse crates metadataId 443 resolved (.ok (response "no-store")) =
    .ok (document, none) := rfl

/-- Two calls find nothing. The second one fetches and publishes; then the first one fetches,
    and its response is not kept. A third call finds the document that was published. -/
theorem refetched : ∃ F older newer, Reachable crates F ∧
    F.cache.lookup metadataId = some older ∧ older.since < newer.since ∧
    ∃ t₁ t₂ t₃, [(t₁, .returned 0 metadataId (.fetched newer)), (t₂, .began 2 metadataId),
      (t₃, .returned 2 metadataId (.hit older))].Sublist F.trace := by
  have h₁ := (Reachable.new 0).step (.begin (C := crates) _ metadataId)
  have h₂ := h₁.step (.miss _ 0 _ _ rfl valid_metadataId nofun)
  have h₃ := h₂.step (.begin _ metadataId)
  have h₄ := h₃.step (.miss _ 1 _ _ rfl valid_metadataId nofun)
  have h₅ := h₄.step (.acquire _ 1 _ 7 rfl rfl)
  have h₆ := h₅.step (.reserve _ 1 _ rfl (Finset.notMem_empty _))
  have h₇ := h₆.step (.start _ 1 _ rfl)
  have h₈ := h₇.step (.answer _ 1 _ _ _ _ _ _ _ _ _ _ rfl valid_metadataId kept rfl)
  have h₉ := h₈.step (.publish _ 1 _ _ "" (fun _ => 0) 0 rfl
    (fun _ => ⟨Int.le_refl 0, Int.le_refl 0⟩) nofun)
  have h₁₀ := h₉.step (.land _ 1 _ _ rfl)
  have h₁₁ := h₁₀.step (.leave _ 1 _ _ rfl)
  have h₁₂ := h₁₁.step (.tick _ instantSecond (by decide))
  have h₁₃ := h₁₂.step (.acquire _ 0 _ 7 rfl rfl)
  have h₁₄ := h₁₃.step (.reserve _ 0 _ rfl (Finset.notMem_erase metadataId _))
  have h₁₅ := h₁₄.step (.start _ 0 _ rfl)
  have h₁₆ := h₁₅.step (.answer _ 0 _ _ _ _ _ _ _ _ _ _ rfl valid_metadataId notKept rfl)
  have h₁₇ := h₁₆.step (.land _ 0 _ _ rfl)
  have h₁₈ := h₁₇.step (.leave _ 0 _ _ rfl)
  have h₁₉ := h₁₈.step (.begin _ metadataId)
  have h₂₀ := h₁₉.step (.hit _ 2 _ _ _ rfl valid_metadataId rfl rfl)
  exact ⟨_, ⟨⟨document, 60 * instantSecond⟩, 1, 0⟩,
    ⟨⟨document, 6 * instantSecond⟩, 0, instantSecond⟩, h₂₀, rfl, by decide, instantSecond,
    instantSecond, instantSecond, by decide⟩

end Sample

end Eri
