/-
  File:      Eri/Freshness.lean
  Subject:   Whether what a caller has seen of a client's metadata can be followed by something
             older.

  A call that found nothing in the cache goes on to fetch, whatever was published since it
  looked. When its response may not be kept, the older document stays in the cache and is handed
  out again.

  * `NeverBack` -- no call that begins after a document was returned returns an older one;
  * `metadata_goes_back` -- a run where one does;
  * `Overtaken` -- the step it takes: a response that is not kept, over a fresh entry;
  * **`metadata_never_back`** -- without such steps metadata never goes back.
-/
import Eri.Publication

namespace Eri.Fetcher

variable {C : Crates} {F F' : Fetcher}

/-! ## 1. Going back -/

/-- **What was seen is not followed by something older**: a call that begins after a document
    was returned returns none whose fetch had started before. -/
def NeverBack (F : Fetcher) : Prop :=
  ∀ (id : String) (i j : Nat) (r r' : FetchResult) (s s' : Snapshot) (t₁ t₂ t₃ : Instant),
    r.snapshot = some s → r'.snapshot = some s' →
    [(t₁, .returned i id r), (t₂, .began j id), (t₃, .returned j id r')].Sublist F.trace →
    s.since ≤ s'.since

/-- A response that is not kept arrives while the cache has a fresh entry of its client. -/
def Overtaken (F F' : Fetcher) : Prop :=
  ∃ i id s e, F'.trace = F.trace ++ [(F.now, .finished i id s none)] ∧
    F.cache.lookup id = some e ∧ e.isFresh F.now = true

/-- **Metadata can go back**: the first call sees the newer document, the third one, which
    begins later, the older one. -/
theorem metadata_goes_back : ∃ F, Reachable Sample.crates F ∧ ¬NeverBack F := by
  obtain ⟨F, older, newer, h, _, hlt, t₁, t₂, t₃, hsub⟩ := Sample.refetched
  exact ⟨F, h, fun hback => absurd (hback _ _ _ _ _ newer older t₁ t₂ t₃ rfl rfl hsub)
    (Int.not_le.mpr hlt)⟩

/-- The states of the runs in which no fresh entry is overtaken. -/
inductive Steady (C : Crates) : Fetcher → Prop where
  | new (now : Instant) : Steady C (new now)
  | step {F F' : Fetcher} (h : Steady C F) (hs : Step C F F') (hq : ¬Overtaken F F') : Steady C F'

theorem Steady.reachable (h : Steady C F) : Reachable C F := by
  induction h with
  | new now => exact .new now
  | step _ hs _ ih => exact ih.step hs

/-! ## 2. What is newest -/

/-- The document of a call whose result is settled. -/
def got (p : Phase) : Option Snapshot := p.result.bind FetchResult.snapshot

/-- The call is in a fetch that started at a moment, or has its document in hand. -/
def Since (p : Phase) (since : Instant) : Prop :=
  p = .fetching since ∨ ∃ s, p = .publishing s ∧ s.since = since

/-- **How old the documents of a client are**, wherever they are: a fetch that is under way
    started after those that are finished, a fresh entry is no older than what a call has got,
    and what a call has got is no older than what had been returned when it began. -/
structure Latest (F : Fetcher) : Prop where
  past : ∀ t i id s ttl, (t, .finished i id s ttl) ∈ F.trace → s.since ≤ F.now
  begun : ∀ i id p since, F.At i id p → Since p since → since ≤ F.now
  current : ∀ i id p since, F.At i id p → Since p since →
    ∀ t j s ttl, (t, .finished j id s ttl) ∈ F.trace → s.since ≤ since
  fresh : ∀ i id p s e, F.At i id p → got p = some s → F.cache.lookup id = some e →
    e.isFresh F.now = true → s.since ≤ e.since
  floor : ∀ i j id r s t₁ t₂, r.snapshot = some s →
    [(t₁, .returned i id r), (t₂, .began j id)].Sublist F.trace →
    ∀ p s', F.At j id p → got p = some s' → s.since ≤ s'.since

/-- Two events in this order are in the longer trace only if they were there, or the second
    one is new. -/
theorem pair_sublist {α : Type} {l es : List α} {x y : α} (h : [x, y].Sublist (l ++ es))
    (hy : y ∉ es) : [x, y].Sublist l := by
  obtain ⟨l₁, l₂, e, h₁, h₂⟩ := List.sublist_append_iff.mp h
  cases l₂ with
  | nil =>
      rw [List.append_nil] at e
      rwa [e]
  | cons z l₂ =>
      have hlast : y ∈ z :: l₂ := by
        match l₁ with
        | [] =>
            cases e
            exact List.mem_cons_of_mem _ List.mem_cons_self
        | [a] =>
            cases e
            exact List.mem_cons_self
        | a :: b :: l₁ => simp at e
      exact absurd (h₂.subset hlast) hy

/-- What a call has got had been fetched. -/
theorem got_finished (hT : Timeline C F) {i : Nat} {id : String} {p : Phase} {s : Snapshot}
    (h : F.At i id p) (hs : got p = some s) : ∃ t j ttl, (t, .finished j id s ttl) ∈ F.trace := by
  have hresult : ∀ r, ResultOk F i id r → r.snapshot = some s →
      ∃ t j ttl, (t, .finished j id s ttl) ∈ F.trace := by
    intro r hr hs
    cases r with
    | hit s' =>
        obtain rfl := Option.some.inj hs
        obtain ⟨t', hwrote⟩ := hr
        obtain ⟨⟨t, ttl, hf⟩, _⟩ := hT.events t' _ hwrote
        exact ⟨t, _, some ttl, hf⟩
    | fetched s' =>
        obtain rfl := Option.some.inj hs
        obtain ⟨t, ttl, hf, _⟩ := hr
        exact ⟨t, i, ttl, hf⟩
    | failed e => cases hs
    | cancelled => cases hs
  have hok := hT.calls i id p h
  cases p with
  | leaving r => exact hresult r hok.1 hs
  | landed r => exact hresult r hok.1 hs
  | ended r => exact hresult r hok hs
  | _ => cases hs

/-- What was returned is what a call has got. -/
theorem returned_got (hT : Timeline C F) {t : Instant} {i : Nat} {id : String} {r : FetchResult}
    {s : Snapshot} {ys : List (Instant × FetchEvent)}
    (hsub : ((t, .returned i id r) :: ys).Sublist F.trace) (hs : r.snapshot = some s) :
    F.At i id (.ended r) ∧ got (.ended r) = some s :=
  ⟨(hT.events t _ (hsub.subset List.mem_cons_self)).1, hs⟩

theorem Since.flies {p : Phase} {since : Instant} (h : Since p since) : p.flies = true := by
  rcases h with rfl | ⟨s, rfl, _⟩ <;> rfl

/-! ## 3. Every step -/

theorem fresh_before {s : Snapshot} {t t' : Instant} (h : t ≤ t') (hs : s.isFresh t' = true) :
    s.isFresh t = true := by
  have hlt : t' < s.metadata.validUntil := of_decide_eq_true hs
  exact decide_eq_true (Int.lt_of_le_of_lt h hlt)

/-- What calls began with is in the trace already. -/
theorem Turn.began_sublist {i j : Nat} {id x : String} {a b : Phase} {es : List FetchEvent}
    {t : Instant} {y : Instant × FetchEvent} (h : Turn C F F' i id a b es)
    (hsub : [y, (t, .began j x)].Sublist F'.trace) : [y, (t, .began j x)].Sublist F.trace := by
  rw [h.trace] at hsub
  refine pair_sublist hsub fun hmem => ?_
  obtain ⟨e, he, heq⟩ := List.mem_map.mp hmem
  have hbegan : e = .began j x := (Prod.mk.inj heq).2
  subst hbegan
  cases h.acts <;> simp at he

/-- A step that finishes no fetch. -/
theorem Turn.finished_mem {i j : Nat} {id x : String} {a b : Phase} {es : List FetchEvent}
    {t : Instant} {s : Snapshot} {ttl : Option Nat} (h : Turn C F F' i id a b es)
    (hmem : (t, .finished j x s ttl) ∈ F'.trace) :
    (t, .finished j x s ttl) ∈ F.trace ∨ .finished j x s ttl ∈ es := by
  rw [h.trace] at hmem
  refine (List.mem_append.mp hmem).imp_right fun hmem => ?_
  obtain ⟨e, he, heq⟩ := List.mem_map.mp hmem
  exact (Prod.mk.inj heq).2 ▸ he

/-- **A step that finishes no fetch and leaves the cache alone**: the call stands where the
    others allow it to. -/
theorem latest_turn {i : Nat} {id : String} {a b : Phase} {es : List FetchEvent}
    (hL : Latest F) (h : Turn C F F' i id a b es) (hcache : F'.cache = F.cache)
    (hes : ∀ j x s ttl, .finished j x s ttl ∉ es)
    (hbegun : ∀ since, Since b since → since ≤ F.now ∧
      ∀ t j s ttl, (t, .finished j id s ttl) ∈ F.trace → s.since ≤ since)
    (hgot : ∀ s, got b = some s → (∀ e, F.cache.lookup id = some e → e.isFresh F.now = true →
      s.since ≤ e.since) ∧ ∀ k r s' t₁ t₂, r.snapshot = some s' →
      [(t₁, .returned k id r), (t₂, .began i id)].Sublist F.trace → s'.since ≤ s.since) :
    Latest F' where
  past t j x s ttl hmem :=
    Int.le_trans (hL.past t j x s ttl ((h.finished_mem hmem).resolve_right (hes j x s ttl))) h.now
  begun j x p since hj hp := by
    rcases h.at_cases hj with ⟨_, _, rfl⟩ | ⟨_, hj⟩
    · exact Int.le_trans (hbegun since hp).1 h.now
    · exact Int.le_trans (hL.begun j x p since hj hp) h.now
  current j x p since hj hp t k s ttl hmem := by
    have hold := (h.finished_mem hmem).resolve_right (hes k x s ttl)
    rcases h.at_cases hj with ⟨_, rfl, rfl⟩ | ⟨_, hj⟩
    · exact (hbegun since hp).2 t k s ttl hold
    · exact hL.current j x p since hj hp t k s ttl hold
  fresh j x p s e hj hp he hfresh := by
    rw [hcache] at he
    have hfresh := fresh_before h.now hfresh
    rcases h.at_cases hj with ⟨_, rfl, rfl⟩ | ⟨_, hj⟩
    · exact (hgot s hp).1 e he hfresh
    · exact hL.fresh j x p s e hj hp he hfresh
  floor k j x r s t₁ t₂ hr hsub p s' hj hp := by
    have hsub := h.began_sublist hsub
    rcases h.at_cases hj with ⟨rfl, rfl, rfl⟩ | ⟨_, hj⟩
    · exact (hgot s' hp).2 k r s t₁ t₂ hr hsub
    · exact hL.floor k j x r s t₁ t₂ hr hsub p s' hj hp

/-- Nothing got and nothing fetched: nothing to compare. -/
theorem latest_open {i : Nat} {id : String} {a b : Phase} {es : List FetchEvent}
    (hL : Latest F) (h : Turn C F F' i id a b es) (hcache : F'.cache = F.cache)
    (hes : ∀ j x s ttl, .finished j x s ttl ∉ es) (hbegun : ∀ since, ¬Since b since)
    (hgot : got b = none) : Latest F' :=
  latest_turn hL h hcache hes (fun since hs => absurd hs (hbegun since)) fun s hs => by
    rw [hgot] at hs
    cases hs

/-- A fetch that starts is the latest one. -/
theorem latest_start {i : Nat} {id : String} (hL : Latest F)
    (h : Turn C F F' i id .reserved (.fetching F.now) [.started i id])
    (hcache : F'.cache = F.cache) : Latest F' := by
  refine latest_turn hL h hcache (fun j x s ttl hmem => ?_) (fun since hs => ?_) nofun
  · cases List.mem_singleton.mp hmem
  · rcases hs with e | ⟨s, e, _⟩
    · cases e
      exact ⟨Int.le_refl _, fun t j s ttl hmem => hL.past t j id s ttl hmem⟩
    · cases e

/-- A document is there. When it is not kept, nothing fresh is overtaken. -/
theorem latest_answer {i : Nat} {id : String} {since : Instant} {s : Snapshot}
    {ttl : Option Nat} {b : Phase} (hL : Latest F) (hT : Timeline C F) (hR : Resources F)
    (h : Turn C F F' i id (.fetching since) b [.finished i id s ttl]) (hsince : s.since = since)
    (hb : b = if ttl.isSome then .publishing s else .leaving (.fetched s))
    (hcache : F'.cache = F.cache) (hq : ¬Overtaken F F') : Latest F' := by
  have hmine : Since (.fetching since) since := Or.inl rfl
  have hflies : b.flies = true := by
    rw [hb]
    cases ttl <;> rfl
  have hnew : ∀ {t j x s' ttl'}, (t, .finished j x s' ttl') ∈ F'.trace →
      (t, .finished j x s' ttl') ∈ F.trace ∨ (x = id ∧ s' = s) := fun hmem =>
    (h.finished_mem hmem).imp_right fun hes => by
      cases List.mem_singleton.mp hes
      exact ⟨rfl, rfl⟩
  -- the call has got the document only when it is not kept
  have hgot : ∀ s', got b = some s' → s' = s ∧ ttl = none := by
    rw [hb]
    intro s' hs'
    cases ttl with
    | some n => cases hs'
    | none => exact ⟨(Option.some.inj hs').symm, rfl⟩
  have hhand : ∀ t', Since b t' → t' = since := by
    rw [hb]
    rintro t' (e | ⟨s', e, rfl⟩)
    · cases ttl <;> cases e
    · cases ttl with
      | some n =>
          cases e
          exact hsince
      | none => cases e
  refine ⟨fun t j x s' ttl' hmem => ?_, fun j x p t' hj hp => ?_,
    fun j x p t' hj hp t k s' ttl' hmem => ?_, fun j x p s' e hj hp he hfresh => ?_,
    fun k j x r s' t₁ t₂ hr hsub p s'' hj hp => ?_⟩
  · rcases hnew hmem with hold | ⟨_, rfl⟩
    · exact Int.le_trans (hL.past t j x s' ttl' hold) h.now
    · exact Int.le_trans (hsince ▸ hL.begun i id _ _ h.stands hmine) h.now
  · rcases h.at_cases hj with ⟨rfl, rfl, rfl⟩ | ⟨_, hj⟩
    · exact Int.le_trans (hhand t' hp ▸ hL.begun j x _ _ h.stands hmine) h.now
    · exact Int.le_trans (hL.begun j x p t' hj hp) h.now
  · rcases h.at_cases hj with ⟨rfl, rfl, rfl⟩ | ⟨hne, hj⟩
    · rw [hhand t' hp]
      rcases hnew hmem with hold | ⟨_, rfl⟩
      · exact hL.current j x _ _ h.stands hmine t k s' ttl' hold
      · exact Int.le_of_eq hsince
    · rcases hnew hmem with hold | ⟨rfl, _⟩
      · exact hL.current j x p t' hj hp t k s' ttl' hold
      · exact absurd (h.alone hR hflies hj hp.flies) hne
  · rw [hcache] at he
    have hfresh := fresh_before h.now hfresh
    rcases h.at_cases hj with ⟨rfl, rfl, rfl⟩ | ⟨_, hj⟩
    · obtain ⟨_, rfl⟩ := hgot s' hp
      exact absurd ⟨j, x, s, e, h.trace, he, hfresh⟩ hq
    · exact hL.fresh j x p s' e hj hp he hfresh
  · have hsub := h.began_sublist hsub
    rcases h.at_cases hj with ⟨rfl, rfl, rfl⟩ | ⟨_, hj⟩
    · obtain ⟨rfl, _⟩ := hgot s'' hp
      obtain ⟨hat, hover⟩ := returned_got hT hsub hr
      obtain ⟨t, n, ttl', hf⟩ := got_finished hT hat hover
      rw [hsince]
      exact hL.current j x _ _ h.stands hmine t n s' ttl' hf
    · exact hL.floor k j x r s' t₁ t₂ hr hsub p s'' hj hp

/-- What is published is the latest document of its client. -/
theorem latest_publish {i : Nat} {id : String} {s : Snapshot} {victim : String}
    {seen : String → Instant} (hL : Latest F) (hT : Timeline C F)
    (h : Turn C F F' i id (.publishing s) (.leaving (.fetched s)) [.wrote i id s])
    (hcache : F'.cache =
      ((F.cache.retain fun k s => s.isFresh (seen k)).makeRoom victim).insert id s) :
    Latest F' := by
  have hmine : Since (.publishing s) s.since := Or.inr ⟨s, rfl, rfl⟩
  have hold : ∀ {t j x s' ttl}, (t, .finished j x s' ttl) ∈ F'.trace →
      (t, .finished j x s' ttl) ∈ F.trace := fun hmem =>
    (h.finished_mem hmem).resolve_right fun hes => by cases List.mem_singleton.mp hes
  have hlatest : ∀ {j p s'}, F.At j id p → got p = some s' → s'.since ≤ s.since := by
    intro j p s' hj hp
    obtain ⟨t, n, ttl, hf⟩ := got_finished hT hj hp
    exact hL.current i id _ _ h.stands hmine t n s' ttl hf
  have hleft : ∀ {since}, ¬Since (.leaving (.fetched s)) since := by
    rintro since (e | ⟨_, e, _⟩) <;> cases e
  refine ⟨fun t j x s' ttl hmem => ?_, fun j x p t' hj hp => ?_,
    fun j x p t' hj hp t k s' ttl hmem => ?_, fun j x p s' e hj hp he hfresh => ?_,
    fun k j x r s' t₁ t₂ hr hsub p s'' hj hp => ?_⟩
  · exact Int.le_trans (hL.past t j x s' ttl (hold hmem)) h.now
  · rcases h.at_cases hj with ⟨_, _, rfl⟩ | ⟨_, hj⟩
    · exact absurd hp hleft
    · exact Int.le_trans (hL.begun j x p t' hj hp) h.now
  · rcases h.at_cases hj with ⟨_, _, rfl⟩ | ⟨_, hj⟩
    · exact absurd hp hleft
    · exact hL.current j x p t' hj hp t k s' ttl (hold hmem)
  · rw [hcache] at he
    by_cases hx : x = id
    · subst hx
      rw [AList.lookup_insert] at he
      obtain rfl := Option.some.inj he
      rcases h.at_cases hj with ⟨_, _, rfl⟩ | ⟨_, hj⟩
      · obtain rfl := Option.some.inj hp
        exact Int.le_refl _
      · exact hlatest hj hp
    · rw [AList.lookup_insert_ne hx] at he
      have hj : F.At j x p := ((h.at_cases hj).resolve_left fun hi => hx hi.2.1).2
      exact hL.fresh j x p s' e hj hp (lookup_retain (lookup_makeRoom he))
        (fresh_before h.now hfresh)
  · have hsub := h.began_sublist hsub
    rcases h.at_cases hj with ⟨rfl, rfl, rfl⟩ | ⟨_, hj⟩
    · obtain rfl := Option.some.inj hp
      obtain ⟨hat, hover⟩ := returned_got hT hsub hr
      exact hlatest hat hover
    · exact hL.floor k j x r s' t₁ t₂ hr hsub p s'' hj hp

/-- What is returned was got before, or is the fresh entry of the moment. -/
theorem latest_return {i : Nat} {id : String} {a : Phase} {r : FetchResult} (hL : Latest F)
    (hT : Timeline C F) (h : Turn C F F' i id a (.ended r) [.returned i id r])
    (hr : a = .landed r ∨ r.snapshot = none ∨
      ∃ s, r = .hit s ∧ F.cache.lookup id = some s ∧ s.isFresh F.now = true)
    (hcache : F'.cache = F.cache) : Latest F' := by
  refine latest_turn hL h hcache (fun j x s ttl hmem => by cases List.mem_singleton.mp hmem)
    (fun since hs => ?_) fun s hs => ?_
  · rcases hs with e | ⟨s, e, _⟩ <;> cases e
  · rcases hr with rfl | hnone | ⟨s', rfl, hlookup, hfresh⟩
    · exact ⟨fun e => hL.fresh i id _ s e h.stands hs, fun k r' s' t₁ t₂ hr' hsub =>
        hL.floor k i id r' s' t₁ t₂ hr' hsub _ s h.stands hs⟩
    · cases hnone.symm.trans hs
    · obtain rfl := Option.some.inj hs
      refine ⟨fun e he _ => ?_, fun k r' s'' t₁ t₂ hr' hsub => ?_⟩
      · rw [Option.some.inj (hlookup.symm.trans he)]
      · obtain ⟨hat, hover⟩ := returned_got hT hsub hr'
        exact hL.fresh k id _ s'' s' hat hover hlookup hfresh

/-- A call begins. -/
theorem latest_begin {id : String} (hL : Latest F)
    (hcalls : F'.calls = F.calls ++ [⟨id, .called⟩])
    (htrace : F'.trace = F.trace ++ [(F.now, .began F.calls.length id)])
    (hcache : F'.cache = F.cache) (hnow : F'.now = F.now) : Latest F' := by
  have hold : ∀ {t j x s ttl}, (t, .finished j x s ttl) ∈ F'.trace →
      (t, .finished j x s ttl) ∈ F.trace := by
    intro t j x s ttl hmem
    rw [htrace] at hmem
    rcases List.mem_append.mp hmem with hmem | hmem
    · exact hmem
    · cases List.mem_singleton.mp hmem
  have hat : ∀ {j x p}, F'.At j x p → F.At j x p ∨ (j = F.calls.length ∧ p = .called) :=
    fun hj => ((begun_at hcalls).mp hj).imp_right fun h => ⟨h.1, h.2.2⟩
  refine ⟨fun t j x s ttl hmem => ?_, fun j x p t' hj hp => ?_,
    fun j x p t' hj hp t k s ttl hmem => ?_, fun j x p s e hj hp he hfresh => ?_,
    fun k j x r s t₁ t₂ hr hsub p s' hj hp => ?_⟩
  · rw [hnow]
    exact hL.past t j x s ttl (hold hmem)
  · rw [hnow]
    rcases hat hj with hj | ⟨_, rfl⟩
    · exact hL.begun j x p t' hj hp
    · cases hp.flies
  · rcases hat hj with hj | ⟨_, rfl⟩
    · exact hL.current j x p t' hj hp t k s ttl (hold hmem)
    · cases hp.flies
  · rw [hcache] at he
    rw [hnow] at hfresh
    rcases hat hj with hj | ⟨_, rfl⟩
    · exact hL.fresh j x p s e hj hp he hfresh
    · cases hp
  · rcases hat hj with hj | ⟨_, rfl⟩
    · rw [htrace] at hsub
      refine hL.floor k j x r s t₁ t₂ hr (pair_sublist hsub fun hmem => ?_) p s' hj hp
      cases List.mem_singleton.mp hmem
      exact absurd (at_lt hj) (Nat.lt_irrefl _)
    · cases hp

theorem latest_step (hL : Latest F) (hT : Timeline C F) (hR : Resources F) (h : Step C F F')
    (hq : ¬Overtaken F F') : Latest F' := by
  rcases step_cases h with ⟨later, hle, rfl⟩ | ⟨id, rfl⟩ | ⟨i, id, a, b, es, hturn⟩
  · exact ⟨fun t j x s ttl hmem => Int.le_trans (hL.past t j x s ttl hmem) hle,
      fun j x p t hj hp => Int.le_trans (hL.begun j x p t hj hp) hle, hL.current,
      fun j x p s e hj hp he hfresh => hL.fresh j x p s e hj hp he (fresh_before hle hfresh),
      hL.floor⟩
  · exact latest_begin hL rfl rfl rfl rfl
  · cases hturn.acts with
    | waits hb hcache =>
        have hidle : b.flies = true → b = .reserved := by
          rcases hb with rfl | rfl | rfl
          · nofun
          · nofun
          · exact fun _ => rfl
        refine latest_open hL hturn hcache nofun (fun since hs => ?_) ?_
        · obtain rfl := hidle hs.flies
          rcases hs with e | ⟨s, e, _⟩ <;> cases e
        · rcases hb with rfl | rfl | rfl <;> rfl
    | gives hr hb hcache =>
        refine latest_open hL hturn hcache nofun (fun since hs => ?_) ?_
        · rcases hb with rfl | rfl <;> rcases hs with e | ⟨s, e, _⟩ <;> cases e
        · rcases hb with rfl | rfl <;> exact hr
    | lands hcache =>
        refine latest_turn hL hturn hcache nofun (fun since hs => ?_) fun s hs =>
          ⟨fun e => hL.fresh i id _ s e hturn.stands hs, fun k r' s' t₁ t₂ hr' hsub =>
            hL.floor k i id r' s' t₁ t₂ hr' hsub _ s hturn.stands hs⟩
        rcases hs with e | ⟨s, e, _⟩ <;> cases e
    | starts hcache => exact latest_start hL hturn hcache
    | answers horigin hsince hvalid httl hdeadline hb hcache =>
        exact latest_answer hL hT hR hturn hsince hb hcache hq
    | publishes hseen hvictim hcache => exact latest_publish hL hT hturn hcache
    | returns hr hcache => exact latest_return hL hT hturn hr hcache

theorem latest_steady (h : Steady C F) : Latest F := by
  induction h with
  | new now =>
      refine ⟨fun t j x s ttl hmem => absurd hmem List.not_mem_nil, ?_, ?_, ?_, ?_⟩
      · intro i id p since hi
        cases hi
      · intro i id p since hi
        cases hi
      · intro i id p s e hi
        cases hi
      · intro i j id r s t₁ t₂ hr hsub
        exact absurd (hsub.subset List.mem_cons_self) List.not_mem_nil
  | step hF hs hq ih =>
      exact latest_step ih (timeline_reachable hF.reachable) (resources_reachable hF.reachable) hs
        hq

/-! ## 4. Never back -/

/-- **Metadata never goes back** in a run in which no response that is not kept arrives over a
    fresh entry of its client. -/
theorem metadata_never_back (h : Steady C F) : NeverBack F := by
  intro id i j r r' s s' t₁ t₂ t₃ hr hr' hsub
  have hL := latest_steady h
  have hT := timeline_reachable h.reachable
  have hpair : [(t₁, .returned i id r), (t₂, .began j id)].Sublist F.trace :=
    List.Sublist.trans (by simp) hsub
  have hmem : (t₃, .returned j id r') ∈ F.trace := hsub.subset (by simp)
  have hover : F.At j id (.ended r') := (hT.events t₃ _ hmem).1
  have hgot : got (.ended r') = some s' := hr'
  exact hL.floor i j id r s t₁ t₂ hr hpair _ s' hover hgot

/-- A step at whose end no response has just been dropped. -/
theorem Steady.calm (h : Steady C F) (hs : Step C F F')
    (hlast : F'.trace.getLast?.all (fun e => e.2 matches .finished _ _ _ none) = false ∨
      F'.trace.length = F.trace.length) : Steady C F' := by
  refine h.step hs ?_
  rintro ⟨i, id, s, e, htrace, _⟩
  rw [htrace] at hlast
  rcases hlast with hlast | hlength
  · simp at hlast
  · simp at hlength

/-- A document is published, and found by the next call. -/
theorem metadata_never_back_kept : ∃ F s, F.cache.lookup Sample.metadataId = some s ∧
    (∃ t, (t, .returned 1 Sample.metadataId (.hit s)) ∈ F.trace) ∧ NeverBack F := by
  open Sample in
  have h₁ := (Steady.new 0).calm (.begin (C := crates) _ metadataId) (Or.inl rfl)
  have h₂ := h₁.calm (.miss _ 0 _ _ rfl valid_metadataId nofun) (Or.inr rfl)
  have h₃ := h₂.calm (.acquire _ 0 _ 7 rfl rfl) (Or.inr rfl)
  have h₄ := h₃.calm (.reserve _ 0 _ rfl (Finset.notMem_empty _)) (Or.inr rfl)
  have h₅ := h₄.calm (.start _ 0 _ rfl) (Or.inl rfl)
  have h₆ := h₅.calm (.answer _ 0 _ _ _ _ _ _ _ _ _ _ rfl valid_metadataId kept rfl) (Or.inl rfl)
  have h₇ := h₆.calm (.publish _ 0 _ _ "" (fun _ => 0) 0 rfl
    (fun _ => ⟨Int.le_refl 0, Int.le_refl 0⟩) nofun) (Or.inl rfl)
  have h₈ := h₇.calm (.land _ 0 _ _ rfl) (Or.inr rfl)
  have h₉ := h₈.calm (.leave _ 0 _ _ rfl) (Or.inl rfl)
  have h₁₀ := h₉.calm (.begin _ metadataId) (Or.inl rfl)
  have h₁₁ := h₁₀.calm (.hit _ 1 _ _ _ rfl valid_metadataId rfl rfl) (Or.inl rfl)
  exact ⟨_, ⟨⟨document, 60 * instantSecond⟩, 0, 0⟩, rfl, ⟨0, by decide⟩,
    metadata_never_back h₁₁⟩

end Eri.Fetcher
