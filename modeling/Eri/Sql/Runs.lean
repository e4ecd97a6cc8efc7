/-
  File:      Eri/Sql/Runs.lean
  Subject:   Whole runs: one order for the calls of a machine, and what later machines keep.

  * `runAll`, `Linearized`, **`linearized`** -- every run of lawful calls answers and leaves
    what its calls do one after the other in some order that respects real time;
  * `steps_rely` -- what a later machine keeps of an earlier one: its rows, up to what the rely
    admits;
  * `Kept`, `reachable_kept`, `kept_between`, `kept_once` -- invariants of the rows: what each
    call alone preserves holds of every reachable machine, and from one call to any later one;
  * `Machine.call`, `reachable_sequential` -- conversely, calls made one after the other are a
    run of the machine;
  * `Machine.turn`, `reachable_turns` -- and so are calls whose statements take turns.
-/
import Eri.Sql.Serial
import Mathlib.Data.List.Induction

namespace Sql

variable {S : Schema} {C ρ : Type} {D : Contract S C} {prog : C → Tx S ρ} {db₀ db : Db S}

/-! ## 1. One order for all calls -/

/-- Calls made one after the other: their answers and the rows they leave. -/
def runAll (prog : C → Tx S ρ) : List C → Db S → List ρ × Db S
  | [], db => ([], db)
  | c :: cs, db =>
      let one := (prog c).run db
      let rest := runAll prog cs one.2
      (one.1 :: rest.1, rest.2)

theorem runAll_append (cs cs' : List C) (db : Db S) :
    runAll prog (cs ++ cs') db =
      ((runAll prog cs db).1 ++ (runAll prog cs' (runAll prog cs db).2).1,
        (runAll prog cs' (runAll prog cs db).2).2) := by
  induction cs generalizing db with
  | nil => rfl
  | cons c cs ih => simp only [List.cons_append, runAll, ih]

/-- A serial run is its calls made one after the other. -/
theorem Atomic.runAll {compat : C → C → Prop} {log : List (Entry S C ρ)}
    (h : Atomic prog compat db₀ log db) :
    Sql.runAll prog (log.map (·.call)) db₀ = (log.map (·.reply), db) := by
  induction h with
  | nil => rfl
  | snoc h e hb hrun hc ih =>
      subst hb
      rw [List.map_append, runAll_append, ih, List.map_append]
      simp only [List.map_cons, List.map_nil, Sql.runAll, hrun]

/-- **`order` explains the machine**: made one after the other in this order, the calls that
    took effect give the same answers and leave the same rows; every answer a caller has is
    among them, and a call that started after another one returned comes later. -/
structure Linearized (prog : C → Tx S ρ) (db₀ : Db S) (M : Machine S C ρ)
    (order : List (Entry S C ρ)) : Prop where
  same : runAll prog (order.map (·.call)) db₀ = (order.map (·.reply), M.db)
  once : (order.map (·.thread)).Nodup
  made : ∀ e ∈ order, ∃ st, M.At e.thread e.call st ∧ st.Settled e.reply
  answered : ∀ i c r, M.At i c (.replied r) →
    ∃ e ∈ order, e.thread = i ∧ e.call = c ∧ e.reply = r
  realTime : ∀ i j, [Event.reply i, Event.start j].Sublist M.trace →
    j ∈ order.map (·.thread) → [i, j].Sublist (order.map (·.thread))

/-- **Statements of lawful calls can be interleaved in any way.** -/
theorem linearized {M : Machine S C ρ} (hD : Lawful D prog db₀)
    (h : Reachable prog D.compat db₀ M) : Linearized prog db₀ M M.log := by
  have hM := serial_reachable hD h
  refine ⟨hM.atomic.runAll, hM.once, hM.entry, fun i c r hi => ?_, hM.order⟩
  obtain ⟨e, he, rfl, rfl⟩ := hM.logged _ _ _ _ hi (settled_replied.mpr rfl)
  obtain ⟨st, hst, _⟩ := hM.entry e he
  unfold Machine.At at hi hst
  rw [hi] at hst
  cases hst
  exact ⟨e, he, rfl, rfl, rfl⟩

/-- **Calls that left the rows as they were can be left out**: without them the other calls
    answer the same and leave the same rows. -/
theorem Atomic.runAll_filter {compat : C → C → Prop} {log : List (Entry S C ρ)}
    {keep : Entry S C ρ → Bool} (h : Atomic prog compat db₀ log db)
    (hno : ∀ e ∈ log, keep e = false → e.after = e.before) :
    Sql.runAll prog ((log.filter keep).map (·.call)) db₀ =
      ((log.filter keep).map (·.reply), db) := by
  induction h with
  | nil => rfl
  | snoc h e hb hrun hc ih =>
      have ih := ih fun x hx => hno x (List.mem_append_left _ hx)
      rw [List.filter_append, List.map_append, List.map_append, runAll_append, ih]
      cases hkeep : keep e with
      | false =>
          have hsame := hno e (List.mem_append_right _ List.mem_cons_self) hkeep
          simp [hkeep, Sql.runAll, hsame, hb]
      | true =>
          simp [hkeep, Sql.runAll, hrun]

/-! ## 2. Later machines -/

/-- Any number of steps of the machine. -/
abbrev Steps (prog : C → Tx S ρ) (compat : C → C → Prop) :
    Machine S C ρ → Machine S C ρ → Prop := Relation.ReflTransGen (Step prog compat)

theorem Reachable.steps {compat : C → C → Prop} {M M' : Machine S C ρ}
    (h : Reachable prog compat db₀ M) (hs : Steps prog compat M M') :
    Reachable prog compat db₀ M' := by
  induction hs with
  | refl => exact h
  | tail _ hs ih => exact ih.step hs

/-- One step adds at most one entry to the log, and only with it the rows change. -/
theorem step_log {compat : C → C → Prop} {M M' : Machine S C ρ} (hs : Step prog compat M M') :
    (M'.log = M.log ∧ M'.db = M.db) ∨
      ∃ e, M'.log = M.log ++ [e] ∧ e.before = M.db ∧ e.after = M'.db := by
  have hsettle : ∀ i c (a : Tx S ρ × Local S), settle i c M.db a = [] ∨
      ∃ e : Entry S C ρ, settle i c M.db a = [e] ∧ e.before = M.db ∧ e.after = M.db := by
    intro i c a
    cases ho : outcome a with
    | none => exact Or.inl (settle_none ho)
    | some r => exact Or.inr ⟨_, settle_some ho, rfl, rfl⟩
  cases hs with
  | start c hc =>
      rcases hsettle M.threads.length c (prog c, .init) with h | ⟨e, h, hb, ha⟩
      · exact Or.inl ⟨by rw [h, List.append_nil], rfl⟩
      · exact Or.inr ⟨e, by rw [h], hb, ha⟩
  | stmt i c s k l hi hfree =>
      rcases hsettle i c (k (s.step M.db l).1, (s.step M.db l).2) with h | ⟨e, h, hb, ha⟩
      · exact Or.inl ⟨by rw [h, List.append_nil], rfl⟩
      · exact Or.inr ⟨e, by rw [h], hb, ha⟩
  | commit i c r l hi hw => exact Or.inr ⟨_, rfl, rfl, rfl⟩
  | finish i c r p l hi ho => exact Or.inl ⟨rfl, rfl⟩
  | fail i c p l hi ho => exact Or.inl ⟨rfl, rfl⟩

/-- **A later machine holds what the rely admits of the rows of an earlier one.** -/
theorem steps_rely {M M' : Machine S C ρ} (hD : Lawful D prog db₀)
    (h : Reachable prog D.compat db₀ M) (hs : Steps prog D.compat M M') :
    D.rely [] M.db M'.db := by
  induction hs with
  | refl => exact D.rely_refl _ _
  | tail hpre hs ih =>
      refine D.rely_trans ih ?_
      rcases step_log hs with ⟨_, e⟩ | ⟨e, hlog, hb, ha⟩
      · rw [e]
        exact D.rely_refl _ _
      · have hM := serial_reachable hD ((h.steps hpre).step hs)
        obtain ⟨held, hallowed⟩ := hM.atomic.allowed hD
          (hlog ▸ List.mem_append_right _ List.mem_cons_self)
        rw [hb, ha] at hallowed
        exact hallowed.rely [] fun _ hk => absurd hk List.not_mem_nil

/-! ## 3. Invariants of the rows -/

/-- `I` survives every call, run alone on good rows. -/
def Kept (D : Contract S C) (prog : C → Tx S ρ) (I : Db S → Prop) : Prop :=
  ∀ c db, D.Good c db → I db → I ((prog c).run db).2

/-- The call of `e` took effect before the call of `e'`. -/
abbrev Before (M : Machine S C ρ) (e e' : Entry S C ρ) : Prop := [e, e'].Sublist M.log

section Invariants

variable {I : Db S → Prop} {M : Machine S C ρ} {e e' : Entry S C ρ}

theorem mem_pair {α : Type} {a b : α} {l : List α} (ha : a ∈ l) (hb : b ∈ l) :
    a = b ∨ [a, b].Sublist l ∨ [b, a].Sublist l := by
  obtain ⟨l₁, l₂, rfl⟩ := List.append_of_mem ha
  rcases List.mem_append.mp hb with hb | hb
  · exact Or.inr (Or.inr ((List.singleton_sublist.mpr hb).append
      (List.singleton_sublist.mpr List.mem_cons_self)))
  · rcases List.mem_cons.mp hb with rfl | hb
    · exact Or.inl rfl
    · refine Or.inr (Or.inl ?_)
      exact (List.cons_sublist_cons.mpr (List.singleton_sublist.mpr hb)).trans
        (List.sublist_append_right ..)

theorem pair_split {α : Type} {a b : α} {l : List α} (h : [a, b].Sublist l) :
    ∃ l₁ l₂ l₃, l = (l₁ ++ a :: l₂) ++ b :: l₃ := by
  obtain ⟨r₁, r₂, rfl, ha, hb⟩ := List.cons_sublist_iff.mp h
  obtain ⟨l₁, l₂, rfl⟩ := List.append_of_mem ha
  obtain ⟨l₂', l₃, rfl⟩ := List.append_of_mem (List.singleton_sublist.mp hb)
  exact ⟨l₁, l₂ ++ l₂', l₃, by simp⟩

theorem Atomic.kept_step {log : List (Entry S C ρ)} (hD : Lawful D prog db₀)
    (hI : Kept D prog I) (h : Atomic prog D.compat db₀ log db) {x : Entry S C ρ} (hx : x ∈ log)
    (hb : I x.before) : I x.after := by
  obtain ⟨hgood, hrun⟩ := h.entry hD hx
  have := hI x.call x.before hgood hb
  rwa [hrun] at this

/-- What a serial run keeps from its start, or from one of its calls. -/
theorem Atomic.kept (hD : Lawful D prog db₀) (hI : Kept D prog I) {log : List (Entry S C ρ)}
    (h : Atomic prog D.compat db₀ log db) :
    (I db₀ → I db) ∧ ∀ l₁ x l₂, log = l₁ ++ x :: l₂ → I x.after → I db := by
  induction h with
  | nil => exact ⟨id, fun l₁ x l₂ e => by simp at e⟩
  | snoc h y hb hrun hc ih =>
      have hstep : I y.before → I y.after := (Atomic.snoc h y hb hrun hc).kept_step hD hI
        (List.mem_append_right _ List.mem_cons_self)
      rw [hb] at hstep
      refine ⟨fun h₀ => hstep (ih.1 h₀), fun l₁ x l₂ hl hx => ?_⟩
      rcases List.eq_nil_or_concat l₂ with rfl | ⟨l₂, z, rfl⟩
      · obtain ⟨_, e⟩ := List.append_inj' hl rfl
        cases e
        exact hx
      · rw [List.concat_eq_append, ← List.cons_append, ← List.append_assoc] at hl
        exact hstep (ih.2 l₁ x l₂ (List.append_inj' hl rfl).1 hx)

/-- Where the rows of a serial run come from. -/
theorem Atomic.origin {t : S.Table} {G : Entry S C ρ → S.Row t → Prop}
    (later : S.Row t → S.Row t → Prop) (hD : Lawful D prog db₀) (h₀ : db₀.rows t = [])
    (hlater : ∀ e r r', G e r → later r r' → G e r')
    (hstep : ∀ e : Entry S C ρ, D.Good e.call e.before →
      (prog e.call).run e.before = (e.reply, e.after) →
      ∀ r ∈ e.after.rows t, (∃ x ∈ e.before.rows t, later x r) ∨ G e r)
    {log : List (Entry S C ρ)} {db : Db S} (hrun : Atomic prog D.compat db₀ log db) :
    ∀ r ∈ db.rows t, ∃ e ∈ log, G e r := by
  induction hrun with
  | nil =>
      rw [h₀]
      exact fun r hr => by cases hr
  | snoc h x hb hrun hc ih =>
      intro r hr
      have hgood := ((Atomic.snoc h x hb hrun hc).entry hD
        (List.mem_append_right _ List.mem_cons_self)).1
      rcases hstep x hgood (hb ▸ hrun) r hr with ⟨y, hy, hl⟩ | hnew
      · obtain ⟨e, he, hG⟩ := ih y (hb ▸ hy)
        exact ⟨e, List.mem_append_left _ he, hlater e y r hG hl⟩
      · exact ⟨x, List.mem_append_right _ List.mem_cons_self, hnew⟩

/-- **Where the rows come from**: when one call leaves only later versions of rows it found
    and rows it is the origin of, every row of a reachable machine has its origin in the log. -/
theorem reachable_origin {t : S.Table} {G : Entry S C ρ → S.Row t → Prop}
    (later : S.Row t → S.Row t → Prop) (hD : Lawful D prog db₀) (h₀ : db₀.rows t = [])
    (hlater : ∀ e r r', G e r → later r r' → G e r')
    (hstep : ∀ e : Entry S C ρ, D.Good e.call e.before →
      (prog e.call).run e.before = (e.reply, e.after) →
      ∀ r ∈ e.after.rows t, (∃ x ∈ e.before.rows t, later x r) ∨ G e r)
    (h : Reachable prog D.compat db₀ M) : ∀ r ∈ M.db.rows t, ∃ e ∈ M.log, G e r :=
  (serial_reachable hD h).atomic.origin later hD h₀ hlater hstep

/-- A row that a call found has its origin in an earlier call. -/
theorem reachable_origin_before {t : S.Table} {G : Entry S C ρ → S.Row t → Prop}
    (later : S.Row t → S.Row t → Prop) (hD : Lawful D prog db₀) (h₀ : db₀.rows t = [])
    (hlater : ∀ e r r', G e r → later r r' → G e r')
    (hstep : ∀ e : Entry S C ρ, D.Good e.call e.before →
      (prog e.call).run e.before = (e.reply, e.after) →
      ∀ r ∈ e.after.rows t, (∃ x ∈ e.before.rows t, later x r) ∨ G e r)
    (h : Reachable prog D.compat db₀ M) (he : e ∈ M.log) :
    ∀ r ∈ e.before.rows t, ∃ e', Before M e' e ∧ G e' r := by
  intro r hr
  obtain ⟨l₁, l₂, hl⟩ := List.append_of_mem he
  obtain ⟨e', he', hG⟩ :=
    ((serial_reachable hD h).atomic.split hl).1.origin later hD h₀ hlater hstep r hr
  obtain ⟨l₃, l₄, rfl⟩ := List.append_of_mem he'
  refine ⟨e', ?_, hG⟩
  have hpair : [e', e].Sublist (e' :: l₄ ++ e :: l₂) :=
    (List.singleton_sublist.mpr List.mem_cons_self).append
      (List.singleton_sublist.mpr List.mem_cons_self)
  rw [Before, hl, List.append_assoc]
  exact hpair.trans (List.sublist_append_right l₃ _)

/-- **What every call keeps holds in every reachable machine.** -/
theorem reachable_kept (hD : Lawful D prog db₀) (hI : Kept D prog I) (h₀ : I db₀)
    (h : Reachable prog D.compat db₀ M) : I M.db :=
  ((serial_reachable hD h).atomic.kept hD hI).1 h₀

/-- What every call keeps holds before each call that took effect. -/
theorem reachable_kept_before (hD : Lawful D prog db₀) (hI : Kept D prog I) (h₀ : I db₀)
    (h : Reachable prog D.compat db₀ M) (he : e ∈ M.log) : I e.before := by
  obtain ⟨l₁, l₂, hl⟩ := List.append_of_mem he
  exact (((serial_reachable hD h).atomic.split hl).1.kept hD hI).1 h₀

/-- A call that took effect ran alone on the rows before it. -/
theorem reachable_entry (hD : Lawful D prog db₀) (h : Reachable prog D.compat db₀ M)
    (he : e ∈ M.log) : D.Good e.call e.before ∧ (prog e.call).run e.before = (e.reply, e.after) :=
  (serial_reachable hD h).atomic.entry hD he

/-- Two calls that took effect go together. -/
theorem entries_compat (hD : Lawful D prog db₀) (h : Reachable prog D.compat db₀ M)
    (he : e ∈ M.log) (he' : e' ∈ M.log) (hne : e ≠ e') : D.compat e.call e'.call := by
  have hM := serial_reachable hD h
  obtain ⟨st, hst, _⟩ := hM.entry e he
  obtain ⟨st', hst', _⟩ := hM.entry e' he'
  exact hM.apart _ _ _ _ _ _ (fun hthread => hne (List.inj_on_of_nodup_map hM.once he he' hthread))
    hst hst'

/-- **What every call keeps holds from one call to any later one.** -/
theorem kept_between (hD : Lawful D prog db₀) (hI : Kept D prog I)
    (h : Reachable prog D.compat db₀ M) (hs : Before M e e') (he : I e.after) : I e'.before := by
  obtain ⟨l₁, l₂, l₃, hl⟩ := pair_split hs
  exact (((serial_reachable hD h).atomic.split hl).1.kept hD hI).2 l₁ e l₂ rfl he

/-- What every call keeps holds from one call on. -/
theorem kept_after (hD : Lawful D prog db₀) (hI : Kept D prog I)
    (h : Reachable prog D.compat db₀ M) (hmem : e ∈ M.log) (he : I e.after) : I M.db := by
  obtain ⟨l₁, l₂, hl⟩ := List.append_of_mem hmem
  exact ((serial_reachable hD h).atomic.kept hD hI).2 l₁ e l₂ hl he

/-- What every call keeps holds from the rows a call found on. -/
theorem kept_since (hD : Lawful D prog db₀) (hI : Kept D prog I)
    (h : Reachable prog D.compat db₀ M) (hmem : e ∈ M.log) (he : I e.before) : I M.db :=
  kept_after hD hI h hmem ((serial_reachable hD h).atomic.kept_step hD hI hmem he)

/-- **A call that needs `I` to fail, and leaves it, takes effect at most once.** -/
theorem kept_once {A : Entry S C ρ → Prop} (hD : Lawful D prog db₀) (hI : Kept D prog I)
    (h : Reachable prog D.compat db₀ M) (hno : ∀ e ∈ M.log, A e → ¬I e.before)
    (hset : ∀ e ∈ M.log, A e → I e.after) (he : e ∈ M.log) (he' : e' ∈ M.log) (ha : A e)
    (ha' : A e') : e = e' := by
  rcases mem_pair he he' with heq | hs | hs
  · exact heq
  · exact absurd (kept_between hD hI h hs (hset e he ha)) (hno e' he' ha')
  · exact absurd (kept_between hD hI h hs (hset e' he' ha')) (hno e he ha)

end Invariants

/-! ## 4. Sequential runs -/

/-- No call is under way. -/
def Machine.Idle (M : Machine S C ρ) : Prop := ∀ i c p l, ¬M.At i c (.running p l)

/-- The machine after one more call, which nobody interrupts. -/
def Machine.call (prog : C → Tx S ρ) (M : Machine S C ρ) (c : C) : Machine S C ρ :=
  let n := M.threads.length
  let out := (prog c).run M.db
  ⟨out.2, M.threads ++ [⟨c, .replied out.1⟩], M.log ++ [⟨n, c, out.1, M.db, out.2⟩],
    M.trace ++ [.start n, .reply n]⟩

/-- Calls made one after the other. -/
def sequential (prog : C → Tx S ρ) (db₀ : Db S) (cs : List C) : Machine S C ρ :=
  cs.foldl (Machine.call prog) (.init db₀)

theorem at_append_last {M : Machine S C ρ} {th : Thread S C ρ} {db : Db S}
    {log : List (Entry S C ρ)} {tr : List Event} {i : Nat} {c : C} {st : Status S ρ}
    (h : Machine.At ⟨db, M.threads ++ [th], log, tr⟩ i c st) :
    (i = M.threads.length ∧ th = ⟨c, st⟩) ∨ M.At i c st := by
  unfold Machine.At at h ⊢
  rw [List.getElem?_append] at h
  split at h
  · exact Or.inr h
  · rename_i hlt
    rw [List.getElem?_singleton] at h
    split at h
    · cases h
      exact Or.inl ⟨by omega, rfl⟩
    · cases h

/-- A call under way that nobody interrupts. -/
def Machine.under (M : Machine S C ρ) (c : C) (a : Tx S ρ × Local S) : Machine S C ρ :=
  ⟨M.db, M.threads ++ [⟨c, .running a.1 a.2⟩], M.log ++ settle M.threads.length c M.db a,
    M.trace ++ [.start M.threads.length]⟩

theorem under_at (M : Machine S C ρ) (c : C) (a : Tx S ρ × Local S) :
    (M.under c a).At M.threads.length c (.running a.1 a.2) := by
  simp [Machine.At, Machine.under]

theorem under_set (M : Machine S C ρ) (c : C) (a : Tx S ρ × Local S) (th : Thread S C ρ) :
    (M.under c a).threads.set M.threads.length th = M.threads ++ [th] := by
  simp [Machine.under]

/-- No call but `c` is under way. -/
def Machine.Only (M : Machine S C ρ) (c : C) : Prop :=
  ∀ i c' p l, M.At i c' (.running p l) → c' = c

theorem Machine.Idle.only {M : Machine S C ρ} (h : M.Idle) (c : C) : M.Only c :=
  fun i c' p l hi => absurd hi (h i c' p l)

theorem only_under {M : Machine S C ρ} (h : M.Idle) (c : C) (a : Tx S ρ × Local S) :
    (M.under c a).Only c := by
  intro i c' p l hi
  rcases at_append_last hi with ⟨_, e⟩ | hi
  · cases e
    rfl
  · exact absurd hi (h i c' p l)

/-- A step of the machine while no call but `c` is under way. -/
def AloneStep (prog : C → Tx S ρ) (compat : C → C → Prop) (c : C) (M M' : Machine S C ρ) :
    Prop := Step prog compat M M' ∧ M.Only c ∧ M'.Only c

theorem steps_under {compat : C → C → Prop} {M : Machine S C ρ} {c : C}
    {a : Tx S ρ × Local S} (hidle : M.Idle) (hc : ∀ th ∈ M.threads, compat th.call c)
    (hs : Solo M.db (prog c, .init) a) :
    Relation.ReflTransGen (AloneStep prog compat c) M (M.under c a) := by
  induction hs with
  | refl => exact .single ⟨.start M c hc, hidle.only c, only_under hidle c _⟩
  | tail _ hs ih =>
      cases hs with
      | stmt s k l =>
          have hfree : (M.under c (.stmt s k, l)).Free M.threads.length
              (s.step M.db l).2.now.held := by
            intro j c' p' l' hne hj
            rcases at_append_last hj with ⟨e, _⟩ | hj
            · exact absurd e hne
            · exact absurd hj (hidle _ _ _ _)
          have hstep : Step prog compat _ _ := .stmt _ _ c s k l (under_at M c _) hfree
          rw [under_set] at hstep
          have e : (M.under c (.stmt s k, l)).log = M.log := List.append_nil _
          rw [e] at hstep
          exact ih.tail ⟨hstep, only_under hidle c _, only_under hidle c _⟩

theorem idle_call {M : Machine S C ρ} {c : C} (hidle : M.Idle) : (M.call prog c).Idle := by
  intro i c' p l hi
  rcases at_append_last hi with ⟨_, e⟩ | hi
  · cases e
  · exact hidle _ _ _ _ hi

/-- **A call that nobody interrupts.** -/
theorem steps_call {compat : C → C → Prop} {M : Machine S C ρ} {c : C} (hidle : M.Idle)
    (hc : ∀ th ∈ M.threads, compat th.call c) :
    Relation.ReflTransGen (AloneStep prog compat c) M (M.call prog c) := by
  have hend : (M.call prog c).Only c := (idle_call hidle).only c
  obtain ⟨r, l, hsolo | hsolo⟩ := solo_ends M.db (prog c) .init
  · have hu := steps_under hidle hc hsolo
    cases hw : l.now.wrote with
    | true =>
        have hstep : Step prog compat _ _ :=
          .commit _ _ c r l (under_at M c (.commit r, l)) hw
        rw [under_set] at hstep
        have e : (M.under c (.commit r, l)).log = M.log := by
          simp [Machine.under, settle, outcome, hw]
        rw [e] at hstep
        have hcall : Step prog compat (M.under c (.commit r, l)) (M.call prog c) := by
          unfold Machine.call
          simp only [run_of_solo_commit hsolo]
          simpa [Machine.under] using hstep
        exact hu.tail ⟨hcall, only_under hidle c _, hend⟩
    | false =>
        have ho : outcome ((.commit r : Tx S ρ), l) = some r := by simp [outcome, hw]
        have hstep : Step prog compat _ _ :=
          .finish _ _ c r _ l (under_at M c (.commit r, l)) ho
        rw [under_set] at hstep
        have hcall : Step prog compat (M.under c (.commit r, l)) (M.call prog c) := by
          unfold Machine.call
          simp only [run_of_solo_outcome hsolo ho]
          simpa [Machine.under, settle, ho] using hstep
        exact hu.tail ⟨hcall, only_under hidle c _, hend⟩
  · have hu := steps_under hidle hc hsolo
    have ho : outcome ((.abort r : Tx S ρ), l) = some r := rfl
    have hstep : Step prog compat _ _ := .finish _ _ c r _ l (under_at M c (.abort r, l)) ho
    rw [under_set] at hstep
    have hcall : Step prog compat (M.under c (.abort r, l)) (M.call prog c) := by
      unfold Machine.call
      simp only [run_of_solo_outcome hsolo ho]
      simpa [Machine.under, settle, ho] using hstep
    exact hu.tail ⟨hcall, only_under hidle c _, hend⟩

/-- It is a run of the machine. -/
theorem reachable_call {compat : C → C → Prop} {M : Machine S C ρ} {c : C}
    (h : Reachable prog compat db₀ M) (hidle : M.Idle)
    (hc : ∀ th ∈ M.threads, compat th.call c) :
    Reachable prog compat db₀ (M.call prog c) :=
  h.steps ((steps_call hidle hc).lift id fun _ _ hs => hs.1)

theorem sequential_concat (cs : List C) (c : C) :
    sequential prog db₀ (cs ++ [c]) = (sequential prog db₀ cs).call prog c := by
  rw [sequential, List.foldl_append]
  rfl

theorem sequential_threads (cs : List C) :
    ((sequential prog db₀ cs).threads.map (·.call)) = cs := by
  induction cs using List.reverseRecOn with
  | nil => rfl
  | append_singleton cs c ih =>
      rw [sequential_concat]
      simp only [Machine.call, List.map_append, ih, List.map_cons, List.map_nil]

/-- **Calls made one after the other are a run of the machine.** -/
theorem reachable_sequential {compat : C → C → Prop} {cs : List C} (h : cs.Pairwise compat) :
    Reachable prog compat db₀ (sequential prog db₀ cs) ∧ (sequential prog db₀ cs).Idle := by
  induction cs using List.reverseRecOn with
  | nil => exact ⟨.init, fun i c p l hi => by cases hi⟩
  | append_singleton cs c ih =>
      rw [List.pairwise_append] at h
      obtain ⟨hr, hidle⟩ := ih h.1
      rw [sequential_concat]
      refine ⟨reachable_call hr hidle fun th hth => ?_, idle_call hidle⟩
      refine h.2.2 th.call ?_ c List.mem_cons_self
      have e : (sequential prog db₀ cs).threads.map (·.call) = cs := sequential_threads cs
      exact e ▸ List.mem_map_of_mem hth

/-- More calls lead to a later machine. -/
theorem steps_sequential {compat : C → C → Prop} {cs cs' : List C}
    (h : (cs ++ cs').Pairwise compat) :
    Steps prog compat (sequential prog db₀ cs) (sequential prog db₀ (cs ++ cs')) := by
  induction cs' using List.reverseRecOn with
  | nil => rw [List.append_nil]
  | append_singleton cs' c ih =>
      rw [← List.append_assoc] at h ⊢
      rw [List.pairwise_append] at h
      rw [sequential_concat]
      have hidle : (sequential prog db₀ (cs ++ cs')).Idle := (reachable_sequential h.1).2
      refine (ih h.1).trans ((steps_call hidle fun th hth => ?_).lift id fun _ _ hs => hs.1)
      have e : (sequential prog db₀ (cs ++ cs')).threads.map (·.call) = cs ++ cs' :=
        sequential_threads (cs ++ cs')
      exact h.2.2 th.call (e ▸ List.mem_map_of_mem hth) c List.mem_cons_self

/-! ## 5. Calls that take turns -/

/-- The locks that other calls under way hold. -/
def Machine.taken (M : Machine S C ρ) (i : Nat) : List (Lock S) :=
  M.threads.zipIdx.flatMap fun th => if th.2 = i then [] else
    match th.1.status with
    | .running _ l => l.now.held
    | _ => []

theorem free_of_taken {M : Machine S C ρ} {i : Nat} {ks : List (Lock S)}
    (h : ∀ k ∈ ks, k ∉ M.taken i) : M.Free i ks := by
  intro j c p l hne hj k hk hheld
  refine h k hk (List.mem_flatMap.mpr ⟨(⟨c, .running p l⟩, j), ?_, ?_⟩)
  · exact List.mem_zipIdx_iff_getElem?.mpr hj
  · rw [if_neg hne]
    exact hheld

/-- A call starts. -/
def Machine.begin (prog : C → Tx S ρ) (M : Machine S C ρ) (c : C) : Machine S C ρ :=
  M.under c (prog c, .init)

/-- **The turn of a call**: its next statement, if nobody else holds a lock that it needs, or
    its end. -/
def Machine.turn (M : Machine S C ρ) (i : Nat) : Machine S C ρ :=
  match M.threads[i]? with
  | some ⟨c, .running (.stmt s k) l⟩ =>
      if ∀ key ∈ (s.step M.db l).2.now.held, key ∉ M.taken i then
        ⟨M.db, M.threads.set i ⟨c, .running (k (s.step M.db l).1) (s.step M.db l).2⟩,
          M.log ++ settle i c M.db (k (s.step M.db l).1, (s.step M.db l).2), M.trace⟩
      else M
  | some ⟨c, .running (.commit r) l⟩ =>
      if l.now.wrote then
        ⟨l.now.eff M.db, M.threads.set i ⟨c, .replied r⟩,
          M.log ++ [⟨i, c, r, M.db, l.now.eff M.db⟩], M.trace ++ [.reply i]⟩
      else ⟨M.db, M.threads.set i ⟨c, .replied r⟩, M.log, M.trace ++ [.reply i]⟩
  | some ⟨c, .running (.abort r) _⟩ =>
      ⟨M.db, M.threads.set i ⟨c, .replied r⟩, M.log, M.trace ++ [.reply i]⟩
  | _ => M

theorem reachable_turn {compat : C → C → Prop} {M : Machine S C ρ}
    (h : Reachable prog compat db₀ M) (i : Nat) : Reachable prog compat db₀ (M.turn i) := by
  unfold Machine.turn
  split
  · rename_i c _ s k l hi
    split
    · rename_i hfree
      exact h.step (.stmt M i c s k l hi (free_of_taken hfree))
    · exact h
  · rename_i c r l hi
    split
    · rename_i hwrote
      exact h.step (.commit M i c r l hi hwrote)
    · rename_i hwrote
      exact h.step (.finish M i c r _ l hi (by simp [outcome, hwrote]))
  · rename_i c r l hi
    exact h.step (.finish M i c r _ l hi rfl)
  · exact h

/-- **Calls that start together and take turns are a run of the machine.** -/
theorem reachable_turns {compat : C → C → Prop} {cs : List C} (h : cs.Pairwise compat)
    (turns : List Nat) :
    Reachable prog compat db₀ (turns.foldl Machine.turn (cs.foldl (.begin prog) (.init db₀))) := by
  have hbegun : Reachable prog compat db₀ (cs.foldl (.begin prog) (.init db₀)) ∧
      (cs.foldl (Machine.begin prog) (.init db₀)).threads.map (·.call) = cs := by
    induction cs using List.reverseRecOn with
    | nil => exact ⟨.init, rfl⟩
    | append_singleton cs c ih =>
        rw [List.pairwise_append] at h
        obtain ⟨hr, hcalls⟩ := ih h.1
        rw [List.foldl_append, List.foldl_cons, List.foldl_nil]
        refine ⟨hr.step (.start _ c fun th hth => ?_), ?_⟩
        · exact h.2.2 th.call (hcalls ▸ List.mem_map_of_mem hth) c List.mem_cons_self
        · simp only [Machine.begin, Machine.under, List.map_append, hcalls, List.map_cons,
            List.map_nil]
  induction turns using List.reverseRecOn with
  | nil => exact hbegun.1
  | append_singleton turns i ih =>
      rw [List.foldl_append]
      exact reachable_turn ih i

end Sql
