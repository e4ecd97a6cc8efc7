/-
  File:      Eri/Publication.lean
  Subject:   What the metadata cache holds, in which order it is written and what callers get
             from it, in every run of the fetcher.

  * `Timeline` -- the trace of a run against its calls and its cache, with one theorem for each
    kind of step;
  * **`fetcher_protocol`** -- bounds, order, contents and hits, together.
-/
import Eri.Fetcher

namespace Eri.Fetcher

variable {C : Crates} {F F' : Fetcher}

/-! ## 1. The trace -/

/-- The call whose fetch of the client id starts. -/
def startOf (id : String) : FetchEvent → Option Nat
  | .started i id' => if id' = id then some i else none
  | _ => none

/-- The call that writes its document of the client id. -/
def writeOf (id : String) : FetchEvent → Option Nat
  | .wrote i id' _ => if id' = id then some i else none
  | _ => none

/-- The fetches of a client id, in the order in which they started. -/
def starts (F : Fetcher) (id : String) : List Nat := F.trace.filterMap fun x => startOf id x.2

/-- The fetches of a client id whose documents were written, in the order of the writes. -/
def writes (F : Fetcher) (id : String) : List Nat := F.trace.filterMap fun x => writeOf id x.2

theorem starts_append {es : List (Instant × FetchEvent)} (h : F'.trace = F.trace ++ es)
    (id : String) : F'.starts id = F.starts id ++ es.filterMap fun x => startOf id x.2 := by
  rw [starts, h, List.filterMap_append, starts]

theorem writes_append {es : List (Instant × FetchEvent)} (h : F'.trace = F.trace ++ es)
    (id : String) : F'.writes id = F.writes id ++ es.filterMap fun x => writeOf id x.2 := by
  rw [writes, h, List.filterMap_append, writes]

/-- An event that neither starts a fetch nor writes the cache. -/
def Silent (e : FetchEvent) : Prop := ∀ id, startOf id e = none ∧ writeOf id e = none

theorem mem_starts {i : Nat} {id : String} :
    i ∈ F.starts id ↔ ∃ t, (t, .started i id) ∈ F.trace := by
  simp only [starts, List.mem_filterMap]
  constructor
  · rintro ⟨⟨t, e⟩, hmem, he⟩
    cases e with
    | started j id' =>
        simp only [startOf] at he
        split at he
        · rename_i hid
          subst hid
          obtain rfl := Option.some.inj he
          exact ⟨t, hmem⟩
        · cases he
    | _ => cases he
  · rintro ⟨t, hmem⟩
    exact ⟨_, hmem, if_pos rfl⟩

/-- Call `i` made the last fetch of the client id, and nothing of it is written. -/
def Current (F : Fetcher) (i : Nat) (id : String) : Prop :=
  ∃ before, F.starts id = before ++ [i] ∧ (F.writes id).Sublist before

/-- **A document that was fetched**: read from a response, validated, and leased from the moment
    it was there, for as long as the response allows. -/
structure Fetched (C : Crates) (F : Fetcher) (t : Instant) (i : Nat) (id : String) (s : Snapshot)
    (ttl : Option Nat) : Prop where
  origin : s.origin = i
  started : (s.since, .started i id) ∈ F.trace
  response : ∃ response : Cimd.ResponseDocument,
    Cimd.validateDocument C id response.body = .ok s.metadata.document ∧
      Cimd.cacheTtl response.cacheControl response.age = ttl
  deadline : s.metadata.validUntil = t + ttl.getD nonCacheableLease * instantSecond

/-- What stands behind a result. -/
def ResultOk (F : Fetcher) (i : Nat) (id : String) : FetchResult → Prop
  | .fetched s => ∃ t ttl, (t, .finished i id s ttl) ∈ F.trace ∧
      (ttl.isSome = true → ∃ t', (t', .wrote i id s) ∈ F.trace)
  | .hit s => ∃ t, (t, .wrote s.origin id s) ∈ F.trace
  | .failed _ | .cancelled => True

/-- What stands behind the place of a call. -/
def CallOk (F : Fetcher) (i : Nat) (id : String) : Phase → Prop
  | .fetching since => F.Current i id ∧ (since, .started i id) ∈ F.trace
  | .publishing s => F.Current i id ∧ ∃ t ttl, (t, .finished i id s (some ttl)) ∈ F.trace
  | .leaving r | .landed r => ResultOk F i id r ∧ ∀ s, r ≠ .hit s
  | .ended r => ResultOk F i id r
  | .called | .missed | .permitted | .reserved => True

/-- What an event of the trace stands for. -/
def EventOk (C : Crates) (F : Fetcher) (t : Instant) : FetchEvent → Prop
  | .began i id => ∃ p, F.At i id p
  | .started i id => ∃ p, F.At i id p ∧ p.started = true
  | .finished i id s ttl => Fetched C F t i id s ttl
  | .wrote i id s => (∃ t ttl, (t, .finished i id s (some ttl)) ∈ F.trace) ∧
      ∃ p, F.At i id p ∧ p.result = some (.fetched s)
  | .returned i id r => F.At i id (.ended r) ∧ ∀ s, r = .hit s → s.isFresh t = true

/-- **The trace, the calls and the cache of a run.** -/
structure Timeline (C : Crates) (F : Fetcher) : Prop where
  once : ∀ id, (F.starts id).Nodup
  order : ∀ id, (F.writes id).Sublist (F.starts id)
  calls : ∀ i id p, F.At i id p → F.CallOk i id p
  events : ∀ t e, (t, e) ∈ F.trace → EventOk C F t e
  cached : ∀ id s, F.cache.lookup id = some s → ∃ t, (t, .wrote s.origin id s) ∈ F.trace
  size : F.cache.entries.length ≤ maxCacheEntries

/-! ## 2. What stays -/

/-- More has happened, and every call has got on. -/
structure Extends (F F' : Fetcher) : Prop where
  trace : F.trace ⊆ F'.trace
  onto : ∀ i id p, F.At i id p → ∃ q, F'.At i id q ∧ Onto p q

theorem fetched_mono (h : F.trace ⊆ F'.trace) {t : Instant} {i : Nat} {id : String}
    {s : Snapshot} {ttl : Option Nat} (hf : Fetched C F t i id s ttl) :
    Fetched C F' t i id s ttl := ⟨hf.origin, h hf.started, hf.response, hf.deadline⟩

theorem eventOk_mono (h : Extends F F') {t : Instant} {e : FetchEvent} (he : EventOk C F t e) :
    EventOk C F' t e := by
  cases e with
  | began i id =>
      obtain ⟨p, hp⟩ := he
      obtain ⟨q, hq, _⟩ := h.onto i id p hp
      exact ⟨q, hq⟩
  | started i id =>
      obtain ⟨p, hp, hs⟩ := he
      obtain ⟨q, hq, honto⟩ := h.onto i id p hp
      exact ⟨q, hq, honto.started hs⟩
  | finished i id s ttl => exact fetched_mono h.trace he
  | wrote i id s =>
      obtain ⟨⟨t', ttl, hf⟩, p, hp, hr⟩ := he
      obtain ⟨q, hq, honto⟩ := h.onto i id p hp
      exact ⟨⟨t', ttl, h.trace hf⟩, q, hq, honto.result _ hr⟩
  | returned i id r =>
      obtain ⟨q, hq, honto⟩ := h.onto i id _ he.1
      rw [honto.ended r rfl] at hq
      exact ⟨hq, he.2⟩

theorem resultOk_mono (h : F.trace ⊆ F'.trace) {i : Nat} {id : String} {r : FetchResult}
    (hr : ResultOk F i id r) : ResultOk F' i id r := by
  cases r with
  | fetched s =>
      obtain ⟨t, ttl, hf, hw⟩ := hr
      exact ⟨t, ttl, h hf, fun hs => (hw hs).imp fun _ hmem => h hmem⟩
  | hit s => exact hr.imp fun _ hmem => h hmem
  | failed e => trivial
  | cancelled => trivial

/-- The client id of a call in its fetch is left alone. -/
theorem callOk_mono (h : F.trace ⊆ F'.trace) {i : Nat} {id : String} {p : Phase}
    (hsame : p.flies = true → F'.starts id = F.starts id ∧ F'.writes id = F.writes id)
    (hp : F.CallOk i id p) : F'.CallOk i id p := by
  have hcurrent : p.flies = true → F.Current i id → F'.Current i id := by
    rintro hflies ⟨before, hs, hw⟩
    obtain ⟨es, ew⟩ := hsame hflies
    exact ⟨before, es.trans hs, ew ▸ hw⟩
  cases p with
  | fetching since => exact ⟨hcurrent rfl hp.1, h hp.2⟩
  | publishing s =>
      obtain ⟨hc, t, ttl, hf⟩ := hp
      exact ⟨hcurrent rfl hc, t, ttl, h hf⟩
  | leaving r => exact ⟨resultOk_mono h hp.1, hp.2⟩
  | landed r => exact ⟨resultOk_mono h hp.1, hp.2⟩
  | ended r => exact resultOk_mono h hp
  | _ => trivial

/-! ## 3. What each step adds -/

/-- **A step of one call**: what it adds to the trace stands for something, the calls of other
    client ids do not see it, and the call stands where it says. -/
theorem timeline_moves {i : Nat} {id : String} {a b : Phase} {es : List FetchEvent}
    (hT : Timeline C F) (hR : Resources F) (hm : Moves F F' i id a b)
    (htrace : F'.trace = F.trace ++ es.map fun e => (F.now, e))
    (hes : ∀ e ∈ es, EventOk C F' F.now e)
    (hothers : ∀ e ∈ es, ∀ x, x ≠ id ∨ b.flies = false → startOf x e = none ∧ writeOf x e = none)
    (hself : F'.CallOk i id b) (honce : (F'.starts id).Nodup)
    (horder : (F'.writes id).Sublist (F'.starts id))
    (hcached : ∀ x s, F'.cache.lookup x = some s → ∃ t, (t, .wrote s.origin x s) ∈ F'.trace)
    (hsize : F'.cache.entries.length ≤ maxCacheEntries) : Timeline C F' := by
  have hsub : F.trace ⊆ F'.trace := by
    rw [htrace]
    exact List.subset_append_left ..
  have hext : Extends F F' := ⟨hsub, fun _ _ _ hj => hm.at_onto hj⟩
  have hsame : ∀ x, x ≠ id ∨ b.flies = false →
      F'.starts x = F.starts x ∧ F'.writes x = F.writes x := by
    intro x hx
    have hnone : ∀ y ∈ es.map fun e => (F.now, e), startOf x y.2 = none ∧ writeOf x y.2 = none := by
      intro y hy
      obtain ⟨e, he, rfl⟩ := List.mem_map.mp hy
      exact hothers e he x hx
    rw [starts_append htrace, writes_append htrace,
      List.filterMap_eq_nil_iff.mpr fun y hy => (hnone y hy).1,
      List.filterMap_eq_nil_iff.mpr fun y hy => (hnone y hy).2, List.append_nil, List.append_nil]
    exact ⟨rfl, rfl⟩
  refine ⟨fun x => ?_, fun x => ?_, fun j x p hj => ?_, fun t e he => ?_, hcached, hsize⟩
  · by_cases hx : x = id
    · exact hx ▸ honce
    · rw [(hsame x (Or.inl hx)).1]
      exact hT.once x
  · by_cases hx : x = id
    · exact hx ▸ horder
    · rw [(hsame x (Or.inl hx)).1, (hsame x (Or.inl hx)).2]
      exact hT.order x
  · rcases hm.at_cases hj with ⟨rfl, rfl, rfl⟩ | ⟨hne, hj⟩
    · exact hself
    · refine callOk_mono hsub (fun hp => hsame x ?_) (hT.calls j x p hj)
      by_cases hx : x = id
      · -- two calls do not fly for one client id
        subst hx
        right
        by_contra hb
        exact hne (hm.alone hR (Bool.eq_true_of_not_eq_false hb) hj hp)
      · exact Or.inl hx
  · rw [htrace] at he
    rcases List.mem_append.mp he with he | he
    · exact eventOk_mono hext (hT.events t e he)
    · obtain ⟨e', he', h⟩ := List.mem_map.mp he
      cases h
      exact hes _ he'

/-- **A step that neither starts a fetch nor writes the cache.** -/
theorem timeline_silent {i : Nat} {id : String} {a b : Phase} {es : List FetchEvent}
    (hT : Timeline C F) (hR : Resources F) (hm : Moves F F' i id a b)
    (htrace : F'.trace = F.trace ++ es.map fun e => (F.now, e))
    (hsilent : ∀ e ∈ es, Silent e) (hes : ∀ e ∈ es, EventOk C F' F.now e)
    (hself : F'.CallOk i id b) (hcache : F'.cache = F.cache) : Timeline C F' := by
  have hnone : ∀ y ∈ es.map fun e => (F.now, e), Silent y.2 := by
    intro y hy
    obtain ⟨e, he, rfl⟩ := List.mem_map.mp hy
    exact hsilent e he
  have hs : F'.starts id = F.starts id := by
    rw [starts_append htrace, List.filterMap_eq_nil_iff.mpr fun y hy => (hnone y hy id).1,
      List.append_nil]
  have hw : F'.writes id = F.writes id := by
    rw [writes_append htrace, List.filterMap_eq_nil_iff.mpr fun y hy => (hnone y hy id).2,
      List.append_nil]
  refine timeline_moves hT hR hm htrace hes (fun e he x _ => hsilent e he x) hself ?_ ?_
    (fun x s hx => ?_) ?_
  · rw [hs]
    exact hT.once id
  · rw [hs, hw]
    exact hT.order id
  · rw [hcache] at hx
    obtain ⟨t, ht⟩ := hT.cached x s hx
    exact ⟨t, htrace ▸ List.mem_append_left _ ht⟩
  · rw [hcache]
    exact hT.size

/-- A fetch starts when no other one of its client id is under way. -/
theorem timeline_start {i : Nat} {id : String} (hT : Timeline C F) (hR : Resources F)
    (h : Turn C F F' i id .reserved (.fetching F.now) [.started i id])
    (hcache : F'.cache = F.cache) : Timeline C F' := by
  have hstarts : F'.starts id = F.starts id ++ [i] := by
    rw [starts_append h.trace]
    simp [startOf]
  have hwrites : F'.writes id = F.writes id := by
    rw [writes_append h.trace]
    simp [writeOf]
  have hnew : i ∉ F.starts id := by
    intro hi
    obtain ⟨t, ht⟩ := mem_starts.mp hi
    obtain ⟨p, hp, hs⟩ := hT.events t _ ht
    rw [(at_unique hp h.stands).2] at hs
    cases hs
  refine timeline_moves hT hR h.toMoves h.trace (fun e he => ?_) (fun e he x hx => ?_)
    ⟨⟨F.starts id, hstarts, hwrites ▸ hT.order id⟩, ?_⟩ ?_ ?_ (fun x s hs => ?_) ?_
  · rw [List.mem_singleton.mp he]
    exact ⟨_, h.at_self, rfl⟩
  · rw [List.mem_singleton.mp he]
    exact ⟨if_neg fun e => hx.elim (fun hne => hne e.symm) nofun, rfl⟩
  · rw [h.trace]
    exact List.mem_append_right _ List.mem_cons_self
  · rw [hstarts]
    exact List.nodup_append.mpr ⟨hT.once id, List.nodup_singleton i, fun x hx y hy => by
      rw [List.mem_singleton.mp hy]
      rintro rfl
      exact hnew hx⟩
  · rw [hstarts, hwrites]
    exact (hT.order id).trans (List.sublist_append_left ..)
  · rw [hcache] at hs
    obtain ⟨t, ht⟩ := hT.cached x s hs
    exact ⟨t, h.trace ▸ List.mem_append_left _ ht⟩
  · rw [hcache]
    exact hT.size

theorem lookup_retain {p : String → Snapshot → Bool} {cache : FetchCache} {id : String}
    {s : Snapshot} (h : (cache.retain p).lookup id = some s) : cache.lookup id = some s := by
  have hmem : Sigma.mk id s ∈ (cache.retain p).entries := AList.mem_lookup_iff.mp h
  exact AList.mem_lookup_iff.mpr (List.mem_of_mem_filter hmem)

theorem lookup_makeRoom {victim : String} {cache : FetchCache} {id : String} {s : Snapshot}
    (h : (cache.makeRoom victim).lookup id = some s) : cache.lookup id = some s := by
  unfold FetchCache.makeRoom at h
  split at h
  · by_cases hid : id = victim
    · rw [hid, AList.lookup_erase] at h
      cases h
    · rwa [AList.lookup_erase_ne hid] at h
  · exact h

theorem length_retain (p : String → Snapshot → Bool) (cache : FetchCache) :
    (cache.retain p).entries.length ≤ cache.entries.length := List.length_filter_le ..

/-- **There is room for one more.** -/
theorem length_makeRoom {victim : String} {cache : FetchCache}
    (hsize : cache.entries.length ≤ maxCacheEntries)
    (hvictim : maxCacheEntries ≤ cache.entries.length → victim ∈ cache) :
    (cache.makeRoom victim).entries.length < maxCacheEntries := by
  unfold FetchCache.makeRoom
  split
  · rename_i hfull
    have hkeys : (cache.erase victim).keys.length = cache.keys.length - 1 := by
      rw [AList.keys_erase]
      exact List.length_erase_of_mem (AList.mem_keys.mp (hvictim hfull))
    have hlen : ∀ c : FetchCache, c.keys.length = c.entries.length := fun c =>
      List.length_map ..
    rw [hlen, hlen] at hkeys
    have hpos : 0 < maxCacheEntries := by decide
    omega
  · exact Nat.lt_of_not_le ‹_›

theorem length_insert_le (id : String) (s : Snapshot) (cache : FetchCache) :
    (cache.insert id s).entries.length ≤ cache.entries.length + 1 := by
  rw [AList.entries_insert, List.length_cons]
  exact Nat.succ_le_succ (List.kerase_sublist ..).length_le

/-- A document is published while its fetch is the last one of its client id. -/
theorem timeline_publish {i : Nat} {id : String} {s : Snapshot} {victim : String}
    {seen : String → Instant} (hT : Timeline C F) (hR : Resources F)
    (h : Turn C F F' i id (.publishing s) (.leaving (.fetched s)) [.wrote i id s])
    (hvictim : maxCacheEntries ≤ (F.cache.retain fun k s => s.isFresh (seen k)).entries.length →
      victim ∈ F.cache.retain fun k s => s.isFresh (seen k))
    (hcache : F'.cache =
      ((F.cache.retain fun k s => s.isFresh (seen k)).makeRoom victim).insert id s) :
    Timeline C F' := by
  obtain ⟨⟨before, hbefore, hsub⟩, t, ttl, hfinished⟩ := hT.calls i id _ h.stands
  have hstarts : F'.starts id = F.starts id := by
    rw [starts_append h.trace]
    simp [startOf]
  have hwrites : F'.writes id = F.writes id ++ [i] := by
    rw [writes_append h.trace]
    simp [writeOf]
  have htrace : F.trace ⊆ F'.trace := by
    rw [h.trace]
    exact List.subset_append_left ..
  have hwrote : (F.now, .wrote i id s) ∈ F'.trace := by
    rw [h.trace]
    exact List.mem_append_right _ List.mem_cons_self
  have horigin : s.origin = i := (hT.events t _ hfinished).origin
  refine timeline_moves hT hR h.toMoves h.trace (fun e he => ?_) (fun e he x hx => ?_)
    ⟨⟨t, some ttl, htrace hfinished, fun _ => ⟨_, hwrote⟩⟩, nofun⟩ ?_ ?_ (fun x e hx => ?_) ?_
  · rw [List.mem_singleton.mp he]
    exact ⟨⟨t, ttl, htrace hfinished⟩, _, h.at_self, rfl⟩
  · rw [List.mem_singleton.mp he]
    exact ⟨rfl, if_neg fun e => hx.elim (fun hne => hne e.symm) nofun⟩
  · rw [hstarts]
    exact hT.once id
  · rw [hstarts, hwrites, hbefore]
    exact hsub.append (List.Sublist.refl _)
  · rw [hcache] at hx
    by_cases hxid : x = id
    · subst hxid
      rw [AList.lookup_insert] at hx
      obtain rfl := Option.some.inj hx
      exact ⟨_, horigin ▸ hwrote⟩
    · rw [AList.lookup_insert_ne hxid] at hx
      obtain ⟨t', ht'⟩ := hT.cached x e (lookup_retain (lookup_makeRoom hx))
      exact ⟨t', htrace ht'⟩
  · rw [hcache]
    have hroom := length_makeRoom (le_trans (length_retain _ _) hT.size) hvictim
    exact le_trans (length_insert_le ..) hroom

/-- A call begins. -/
theorem timeline_begin {id : String} (hT : Timeline C F)
    (hcalls : F'.calls = F.calls ++ [⟨id, .called⟩])
    (htrace : F'.trace = F.trace ++ [(F.now, .began F.calls.length id)])
    (hcache : F'.cache = F.cache) : Timeline C F' := by
  have hsub : F.trace ⊆ F'.trace := by
    rw [htrace]
    exact List.subset_append_left ..
  have hstarts : ∀ x, F'.starts x = F.starts x := fun x => by
    rw [starts_append htrace]
    exact List.append_nil _
  have hwrites : ∀ x, F'.writes x = F.writes x := fun x => by
    rw [writes_append htrace]
    exact List.append_nil _
  have hext : Extends F F' :=
    ⟨hsub, fun j x p hj => ⟨p, (begun_at hcalls).mpr (Or.inl hj), .refl p⟩⟩
  refine ⟨fun x => ?_, fun x => ?_, fun j x p hj => ?_, fun t e he => ?_, fun x s hx => ?_, ?_⟩
  · rw [hstarts]
    exact hT.once x
  · rw [hstarts, hwrites]
    exact hT.order x
  · rcases (begun_at hcalls).mp hj with hj | ⟨rfl, rfl, rfl⟩
    · exact callOk_mono hsub (fun _ => ⟨hstarts x, hwrites x⟩) (hT.calls j x p hj)
    · trivial
  · rw [htrace] at he
    rcases List.mem_append.mp he with he | he
    · exact eventOk_mono hext (hT.events t e he)
    · cases List.mem_singleton.mp he
      exact ⟨.called, (begun_at hcalls).mpr (Or.inr ⟨rfl, rfl, rfl⟩)⟩
  · rw [hcache] at hx
    exact (hT.cached x s hx).imp fun _ hmem => hsub hmem
  · rw [hcache]
    exact hT.size

/-- A response is there: the document is to be published, or handed out at once. -/
theorem timeline_answer {i : Nat} {id : String} {since : Instant} {s : Snapshot}
    {response : Cimd.ResponseDocument} {ttl : Option Nat} {b : Phase} (hT : Timeline C F)
    (hR : Resources F) (h : Turn C F F' i id (.fetching since) b [.finished i id s ttl])
    (horigin : s.origin = i) (hsince : s.since = since)
    (hvalid : Cimd.validateDocument C id response.body = .ok s.metadata.document)
    (httl : Cimd.cacheTtl response.cacheControl response.age = ttl)
    (hdeadline : s.metadata.validUntil = F.now + ttl.getD nonCacheableLease * instantSecond)
    (hb : b = if ttl.isSome then .publishing s else .leaving (.fetched s))
    (hcache : F'.cache = F.cache) : Timeline C F' := by
  have hsub : F.trace ⊆ F'.trace := by
    rw [h.trace]
    exact List.subset_append_left ..
  obtain ⟨hcurrent, hstarted⟩ := hT.calls i id _ h.stands
  have hfinished : (F.now, .finished i id s ttl) ∈ F'.trace := by
    rw [h.trace]
    exact List.mem_append_right _ List.mem_cons_self
  have hstarts : F'.starts id = F.starts id := by
    rw [starts_append h.trace]
    exact List.append_nil _
  have hwrites : F'.writes id = F.writes id := by
    rw [writes_append h.trace]
    exact List.append_nil _
  refine timeline_silent hT hR h.toMoves h.trace (fun e he => ?_) (fun e he => ?_) ?_ hcache
  · rw [List.mem_singleton.mp he]
    exact fun _ => ⟨rfl, rfl⟩
  · rw [List.mem_singleton.mp he]
    exact ⟨horigin, hsub (hsince ▸ hstarted), ⟨response, hvalid, httl⟩, hdeadline⟩
  · rw [hb]
    cases ttl with
    | some n =>
        obtain ⟨before, hbefore, hw⟩ := hcurrent
        exact ⟨⟨before, hstarts.trans hbefore, hwrites ▸ hw⟩, F.now, n, hfinished⟩
    | none => exact ⟨⟨F.now, none, hfinished, nofun⟩, nofun⟩

/-- A call returns. -/
theorem timeline_return {i : Nat} {id : String} {a : Phase} {r : FetchResult}
    (hT : Timeline C F) (hR : Resources F) (h : Turn C F F' i id a (.ended r) [.returned i id r])
    (hr : a = .landed r ∨ r.snapshot = none ∨
      ∃ s, r = .hit s ∧ F.cache.lookup id = some s ∧ s.isFresh F.now = true)
    (hcache : F'.cache = F.cache) : Timeline C F' := by
  have hsub : F.trace ⊆ F'.trace := by
    rw [h.trace]
    exact List.subset_append_left ..
  have hstands := hT.calls i id a h.stands
  have hfresh : ∀ s, r = .hit s → s.isFresh F.now = true := by
    rintro s rfl
    rcases hr with rfl | hnone | ⟨s', e, _, hfresh⟩
    · exact absurd rfl (hstands.2 s)
    · cases hnone
    · cases e
      exact hfresh
  have hresult : ResultOk F i id r := by
    rcases hr with rfl | hnone | ⟨s, rfl, hlookup, _⟩
    · exact hstands.1
    · cases r with
      | hit s => cases hnone
      | fetched s => cases hnone
      | failed e => trivial
      | cancelled => trivial
    · exact hT.cached id s hlookup
  refine timeline_silent hT hR h.toMoves h.trace (fun e he => ?_) (fun e he => ?_)
    (resultOk_mono hsub hresult) hcache
  · rw [List.mem_singleton.mp he]
    exact fun _ => ⟨rfl, rfl⟩
  · rw [List.mem_singleton.mp he]
    exact ⟨h.at_self, hfresh⟩

/-- **Every step keeps to the timeline.** -/
theorem timeline_step (hT : Timeline C F) (hR : Resources F) (h : Step C F F') :
    Timeline C F' := by
  rcases step_cases h with ⟨later, _, rfl⟩ | ⟨id, rfl⟩ | ⟨i, id, a, b, es, hturn⟩
  · have hext : Extends F { F with now := later } :=
      ⟨List.Subset.refl _, fun _ _ p hp => ⟨p, hp, .refl p⟩⟩
    exact ⟨hT.once, hT.order, hT.calls, fun t e he => eventOk_mono hext (hT.events t e he),
      hT.cached, hT.size⟩
  · exact timeline_begin hT rfl rfl rfl
  · have hsub : F.trace ⊆ F'.trace := by
      rw [hturn.trace]
      exact List.subset_append_left ..
    have hstands := hT.calls i id a hturn.stands
    cases hturn.acts with
    | waits hb hcache =>
        refine timeline_silent hT hR hturn.toMoves hturn.trace nofun nofun ?_ hcache
        rcases hb with rfl | rfl | rfl <;> trivial
    | gives hr hb hcache =>
        refine timeline_silent hT hR hturn.toMoves hturn.trace nofun nofun ?_ hcache
        rename_i r
        have hok : ResultOk F' i id r ∧ ∀ s, r ≠ .hit s := by
          cases r with
          | hit s => cases hr
          | fetched s => cases hr
          | failed e => exact ⟨trivial, nofun⟩
          | cancelled => exact ⟨trivial, nofun⟩
        rcases hb with rfl | rfl <;> exact hok
    | lands hcache =>
        exact timeline_silent hT hR hturn.toMoves hturn.trace nofun nofun
          ⟨resultOk_mono hsub hstands.1, hstands.2⟩ hcache
    | starts hcache => exact timeline_start hT hR hturn hcache
    | answers horigin hsince hvalid httl hdeadline hb hcache =>
        exact timeline_answer hT hR hturn horigin hsince hvalid httl hdeadline hb hcache
    | publishes hseen hvictim hcache => exact timeline_publish hT hR hturn hvictim hcache
    | returns hr hcache => exact timeline_return hT hR hturn hr hcache

theorem timeline_reachable (h : Reachable C F) : Timeline C F := by
  induction h with
  | new now =>
      exact ⟨fun _ => List.nodup_nil, fun _ => List.Sublist.refl _, fun i id p hi => (by cases hi),
        fun t e he => absurd he List.not_mem_nil, fun id s hs => (by cases hs), Nat.zero_le _⟩
  | step hF hs ih => exact timeline_step ih (resources_reachable hF) hs

/-! ## 4. The protocol -/

/-- **What the fetcher guarantees at every moment.**

    (1) At most eight calls hold a permit, at most one fetches for a client id, and nothing
    stays taken. (2) The documents of a client id are written in the order in which their
    fetches started, each fetch started once. (3) The cache is bounded, and each of its entries
    is a validated document of its client, from a response that states a lifetime, kept for that
    lifetime from the end of its fetch, at most five minutes. (4) What a hit returns was
    written to the cache as it is and was fresh when it was found; nothing but a fetch of a
    document with a stated lifetime, whose call returns that document, writes the cache. -/
structure CacheProtocol (C : Crates) (F : Fetcher) : Prop where
  bounded : F.calls.countP (·.phase.hasPermit) ≤ maxFetches
  single : ∀ i j id p q, F.At i id p → F.At j id q → p.flies = true → q.flies = true → i = j
  idle : (∀ call ∈ F.calls, ∃ r, call.phase = .ended r) → F.inFlight = ∅ ∧ F.permits = maxFetches
  once : ∀ id, (F.starts id).Nodup
  order : ∀ id, (F.writes id).Sublist (F.starts id)
  size : F.cache.entries.length ≤ maxCacheEntries
  entries : ∀ id s, F.cache.lookup id = some s → s.metadata.document.clientId = id ∧
    ∃ (t : Instant) (ttl : Nat) (response : Cimd.ResponseDocument),
      (t, .finished s.origin id s (some ttl)) ∈ F.trace ∧
      Cimd.validateDocument C id response.body = .ok s.metadata.document ∧
      Cimd.cacheTtl response.cacheControl response.age = some ttl ∧ 0 < ttl ∧
      s.metadata.validUntil = t + ttl * instantSecond ∧
      s.metadata.validUntil ≤ t + 300 * instantSecond
  hits : ∀ t i id s, (t, .returned i id (.hit s)) ∈ F.trace → s.isFresh t = true ∧
    ∃ t', (t', .wrote s.origin id s) ∈ F.trace
  writers : ∀ t i id s, (t, .wrote i id s) ∈ F.trace →
    (∃ t' ttl, (t', .finished i id s (some ttl)) ∈ F.trace) ∧
      ∀ r, F.At i id (.ended r) → r = .fetched s

theorem cacheProtocol_reachable (h : Reachable C F) : CacheProtocol C F := by
  have hR := resources_reachable h
  have hT := timeline_reachable h
  refine ⟨?_, hR.single, fun hover => ?_, hT.once, hT.order, hT.size, fun id s hs => ?_,
    fun t i id s hhit => ?_, fun t i id s hwrote => ?_⟩
  · have hsum := hR.permits
    omega
  · have hnone : ∀ i id p, F.At i id p → p.flies = false ∧ p.hasPermit = false := by
      intro i id p hi
      obtain ⟨r, hr⟩ := hover _ (List.mem_of_getElem? hi)
      rw [show p = .ended r from hr]
      exact ⟨rfl, rfl⟩
    have hcount : F.calls.countP (·.phase.hasPermit) = 0 := by
      refine List.countP_eq_zero.mpr fun call hcall => ?_
      obtain ⟨r, hr⟩ := hover call hcall
      rw [hr]
      exact nofun
    have hsum := hR.permits
    refine ⟨Finset.eq_empty_of_forall_notMem fun id hid => ?_, by omega⟩
    obtain ⟨i, p, hi, hp⟩ := (hR.reserved id).mp hid
    rw [(hnone i id p hi).1] at hp
    cases hp
  · obtain ⟨t', hwrote⟩ := hT.cached id s hs
    obtain ⟨⟨t, ttl, hfinished⟩, _⟩ := hT.events t' _ hwrote
    obtain ⟨_, _, ⟨response, hvalid, httl⟩, hdeadline⟩ := hT.events t _ hfinished
    obtain ⟨hpos, hle⟩ := Cimd.cacheTtl_le httl
    have hmost : (ttl : Int) * instantSecond ≤ 300 * instantSecond :=
      Int.mul_le_mul_of_nonneg_right (Int.ofNat_le.mpr hle) (by decide)
    refine ⟨Cimd.validateDocument_id hvalid, t, ttl, response, hfinished, hvalid, httl, hpos,
      hdeadline, ?_⟩
    rw [hdeadline]
    exact Int.add_le_add_left hmost t
  · obtain ⟨hover, hfresh⟩ := hT.events t _ hhit
    exact ⟨hfresh s rfl, hT.calls i id _ hover⟩
  · obtain ⟨hfinished, p, hp, hresult⟩ := hT.events t _ hwrote
    refine ⟨hfinished, fun r hr => ?_⟩
    rw [(at_unique hp hr).2] at hresult
    exact Option.some.inj hresult

/-- The cache is written by the calls that publish. -/
theorem Turn.cache {i : Nat} {id : String} {a b : Phase} {es : List FetchEvent}
    (h : Turn C F F' i id a b es) :
    F'.cache = F.cache ∨ ∃ s, F'.trace = F.trace ++ [(F.now, .wrote i id s)] := by
  have htrace := h.trace
  cases h.acts with
  | publishes hseen hvictim hcache => exact Or.inr ⟨_, htrace⟩
  | _ => exact Or.inl ‹_›

/-- A hit is the entry of the moment. -/
theorem Turn.hit {i : Nat} {id : String} {a b : Phase} {es : List FetchEvent} {s : Snapshot}
    (hT : Timeline C F) (h : Turn C F F' i id a b es) (he : .returned i id (.hit s) ∈ es) :
    F.cache.lookup id = some s ∧ s.isFresh F.now = true := by
  have hstands := hT.calls i id a h.stands
  cases h.acts with
  | returns hr hcache =>
      cases List.mem_singleton.mp he
      rcases hr with rfl | hnone | ⟨s', e, hlookup, hfresh⟩
      · exact absurd rfl (hstands.2 s)
      · cases hnone
      · cases e
        exact ⟨hlookup, hfresh⟩
  | _ => simp at he

/-- **The cache protocol of the fetcher**, in every run and at its every step: the cache
    changes only when a call publishes its document, and a hit is the entry of the moment. -/
theorem fetcher_protocol (h : Reachable C F) : CacheProtocol C F ∧
    ∀ F', Step C F F' →
      (F'.cache = F.cache ∨ ∃ i id s, F'.trace = F.trace ++ [(F.now, .wrote i id s)]) ∧
      ∀ i id s, F'.trace = F.trace ++ [(F.now, .returned i id (.hit s))] →
        F.cache.lookup id = some s ∧ s.isFresh F.now = true := by
  refine ⟨cacheProtocol_reachable h, fun F' hs => ?_⟩
  have hT := timeline_reachable h
  rcases step_cases hs with ⟨later, _, rfl⟩ | ⟨id, rfl⟩ | ⟨i, id, a, b, es, hturn⟩
  · refine ⟨Or.inl rfl, fun i id s htrace => ?_⟩
    have hlen := congrArg List.length htrace
    rw [List.length_append] at hlen
    exact absurd hlen (Nat.ne_of_lt (Nat.lt_succ_self _))
  · refine ⟨Or.inl rfl, fun i id s htrace => ?_⟩
    cases List.append_cancel_left htrace
  · refine ⟨hturn.cache.imp_right fun ⟨s, hs⟩ => ⟨i, id, s, hs⟩, fun j x s htrace => ?_⟩
    have he : es.map (fun e => (F.now, e)) = [(F.now, .returned j x (.hit s))] :=
      List.append_cancel_left (hturn.trace.symm.trans htrace)
    have hmem : FetchEvent.returned j x (.hit s) ∈ es := by
      obtain ⟨e, hes, heq⟩ := List.mem_map.mp (he ▸ List.mem_cons_self)
      cases heq
      exact hes
    have hself : j = i ∧ x = id := by
      cases hturn.acts with
      | returns hr hcache =>
          cases List.mem_singleton.mp hmem
          exact ⟨rfl, rfl⟩
      | _ => simp at hmem
    obtain ⟨rfl, rfl⟩ := hself
    exact hturn.hit hT hmem

/-- A document is published while another call of the client waits. -/
theorem fetcher_protocol_refetched : ∃ F s, F.cache.lookup Sample.metadataId = some s ∧
    CacheProtocol Sample.crates F := by
  obtain ⟨F, s, _, h, hlookup, _⟩ := Sample.refetched
  exact ⟨F, s, hlookup, (fetcher_protocol h).1⟩

end Eri.Fetcher
