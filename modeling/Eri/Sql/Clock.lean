/-
  File:      Eri/Sql/Clock.lean
  Subject:   Reading a clock under an advisory lock.

  A call that takes an advisory lock and then reads a clock that never goes back reads it while
  it holds the lock. So calls that take effect under one lock, one after the other, have read
  the clock in that order.

  * `Clocked` -- runs with a clock: the time of each step, and which readings it admits;
  * `Entry.Held` -- the call took effect with the lock;
  * `ClockInv`, **`clocked_order`**.
-/
import Eri.Sql.Visits
import Mathlib.Order.Basic

namespace Sql

variable {S : Schema} {C ρ T : Type} {prog : C → Tx S ρ} {db₀ : Db S}

/-! ## 1. Runs with a clock -/

/-- Thread `i` runs `c` and holds the advisory lock. -/
def Machine.Holds (M : Machine S C ρ) (i : Nat) (c : C) (a : S.Advisory) : Prop :=
  ∃ p l, M.At i c (.running p l) ∧ Lock.advisory a ∈ l.now.held

/-- A step at the time `now`: a call reads its clock after the statement that gave it an
    advisory lock and before whatever it does next. -/
structure ReadsClock [LE T] (reading : C → Option T) (M M' : Machine S C ρ) (now : T) :
    Prop where
  after : ∀ j c a, M'.Holds j c a → ¬M.Holds j c a → ∀ x ∈ reading c, now ≤ x
  before : ∀ j c p l a, M.At j c (.running p l) → Lock.advisory a ∈ l.now.held →
    ¬M'.At j c (.running p l) → ∀ x ∈ reading c, x ≤ now

/-- **The runs under a clock that never goes back**, with the time of the last step. -/
inductive Clocked [LE T] (prog : C → Tx S ρ) (compat : C → C → Prop) (db₀ : Db S)
    (reading : C → Option T) : Machine S C ρ → T → Prop where
  | init (now : T) : Clocked prog compat db₀ reading (.init db₀) now
  | step {M M' : Machine S C ρ} {now now' : T} (h : Clocked prog compat db₀ reading M now)
      (hs : Step prog compat M M') (hle : now ≤ now') (hread : ReadsClock reading M M' now') :
      Clocked prog compat db₀ reading M' now'

/-- While no call but `c` is under way, time stands still at its reading. -/
theorem readsClock_only [Preorder T] {reading : C → Option T} {M M' : Machine S C ρ} {c : C}
    {now : T} (hM : M.Only c) (hM' : M'.Only c) (hx : ∀ x ∈ reading c, x = now) :
    ReadsClock reading M M' now where
  after j c' a hj _ x hxm := by
    obtain ⟨p, l, hat, _⟩ := hj
    rw [hM' j c' p l hat] at hxm
    exact le_of_eq (hx x hxm).symm
  before j c' p l a hat _ _ x hxm := by
    rw [hM j c' p l hat] at hxm
    exact le_of_eq (hx x hxm)

/-- A call that nobody interrupts, at the time of its reading. -/
theorem clocked_call [Preorder T] {compat : C → C → Prop} {reading : C → Option T}
    {M : Machine S C ρ} {now now' : T} {c : C}
    (h : Clocked prog compat db₀ reading M now) (hidle : M.Idle)
    (hc : ∀ th ∈ M.threads, compat th.call c) (hle : now ≤ now')
    (hx : ∀ x ∈ reading c, x = now') :
    Clocked prog compat db₀ reading (M.call prog c) now' := by
  have hsteps : Relation.ReflTransGen (AloneStep prog compat c) M (M.call prog c) :=
    steps_call hidle hc
  -- the first step brings the new time
  rcases hsteps.cases_head with heq | ⟨M₁, ⟨hs, honly, honly₁⟩, hrest⟩
  · have hlen := congrArg (fun m : Machine S C ρ => m.threads.length) heq
    simp [Machine.call] at hlen
  · have hfirst : Clocked prog compat db₀ reading M₁ now' :=
      h.step hs hle (readsClock_only honly honly₁ hx)
    clear hsteps
    generalize M.call prog c = M' at hrest ⊢
    induction hrest with
    | refl => exact hfirst
    | tail _ hs ih =>
        exact ih.step hs.1 le_rfl (readsClock_only hs.2.1 hs.2.2 hx)

/-- **Calls made one after the other, each at its own time.** -/
theorem clocked_sequential [Preorder T] {compat : C → C → Prop} {reading : C → Option T}
    {time : C → T} (start : T) (hx : ∀ c, ∀ x ∈ reading c, x = time c) {cs : List C}
    (hc : cs.Pairwise compat) (ht : cs.Pairwise fun c c' => time c ≤ time c')
    (hs : ∀ c ∈ cs, start ≤ time c) :
    ∃ now, Clocked prog compat db₀ reading (sequential prog db₀ cs) now ∧
      (now = start ∨ ∃ c ∈ cs, now = time c) := by
  induction cs using List.reverseRecOn with
  | nil => exact ⟨start, .init start, Or.inl rfl⟩
  | append_singleton cs c ih =>
      have hidle : (sequential prog db₀ cs).Idle :=
        (reachable_sequential (List.pairwise_append.mp hc).1).2
      rw [List.pairwise_append] at hc ht
      obtain ⟨now, hclocked, hnow⟩ := ih hc.1 ht.1 fun c' hc' =>
        hs c' (List.mem_append_left _ hc')
      have hle : now ≤ time c := by
        rcases hnow with rfl | ⟨c', hc', rfl⟩
        · exact hs c (List.mem_append_right _ List.mem_cons_self)
        · exact ht.2.2 c' hc' c List.mem_cons_self
      have hcompat : ∀ th ∈ (sequential prog db₀ cs).threads, compat th.call c := by
        intro th hth
        refine hc.2.2 th.call ?_ c List.mem_cons_self
        have e : (sequential prog db₀ cs).threads.map (·.call) = cs := sequential_threads cs
        exact e ▸ List.mem_map_of_mem hth
      refine ⟨time c, ?_, Or.inr ⟨c, List.mem_append_right _ List.mem_cons_self, rfl⟩⟩
      rw [sequential_concat]
      exact clocked_call hclocked hidle hcompat hle (hx c)

theorem Clocked.reachable [LE T] {compat : C → C → Prop} {reading : C → Option T}
    {M : Machine S C ρ} {now : T} (h : Clocked prog compat db₀ reading M now) :
    Reachable prog compat db₀ M := by
  induction h with
  | init now => exact .init
  | step _ hs _ _ ih => exact .step ih hs

/-- The call of an entry took effect with the lock. -/
def Entry.Held (prog : C → Tx S ρ) (e : Entry S C ρ) (a : S.Advisory) : Prop :=
  ∃ q l, q.Ended ∧ Solo e.before (prog e.call, .init) (q, l) ∧ Lock.advisory a ∈ l.now.held

/-! ## 2. What one step does to threads and log -/

/-- One thread moves. -/
theorem step_frame {compat : C → C → Prop} {M M' : Machine S C ρ} (hs : Step prog compat M M') :
    ∃ i, ∀ j c st, j ≠ i → (M'.At j c st ↔ M.At j c st) := by
  cases hs with
  | start c hc =>
      refine ⟨M.threads.length, fun j c' st hj => ?_⟩
      unfold Machine.At
      rcases Nat.lt_or_gt_of_ne hj with hlt | hgt
      · rw [List.getElem?_append_left hlt]
      · have hnone : M.threads[j]? = none := List.getElem?_eq_none (Nat.le_of_lt hgt)
        have hnone' : (M.threads ++ [⟨c, .running (prog c) .init⟩])[j]? = none := by
          refine List.getElem?_eq_none ?_
          rw [List.length_append]
          exact hgt
        rw [hnone, hnone']
  | stmt i c s k l hi hfree => exact ⟨i, fun j c' st hj => at_set_ne hj⟩
  | commit i c r l hi hw => exact ⟨i, fun j c' st hj => at_set_ne hj⟩
  | finish i c r p l hi ho => exact ⟨i, fun j c' st hj => at_set_ne hj⟩
  | fail i c p l hi ho => exact ⟨i, fun j c' st hj => at_set_ne hj⟩

/-- A thread that took a lock in this step found nobody holding it. -/
theorem step_takes {compat : C → C → Prop} {M M' : Machine S C ρ} {a : S.Advisory}
    (hs : Step prog compat M M')
    (hexcl : ∀ i j c c', M'.Holds i c a → M'.Holds j c' a → i = j) {j : Nat} {c : C}
    (hj : M'.Holds j c a) (hno : ¬M.Holds j c a) {i : Nat} {c' : C} (hi : M.Holds i c' a) :
    i = j := by
  obtain ⟨m, hframe⟩ := step_frame hs
  obtain ⟨p, l, hat, hmem⟩ := hj
  -- the thread that took the lock is the one that moved
  have hm : j = m := by
    by_contra hne
    exact hno ⟨p, l, (hframe j c _ hne).mp hat, hmem⟩
  by_contra hne
  obtain ⟨p', l', hat', hmem'⟩ := hi
  have hstill := (hframe i c' _ fun e => hne (e.trans hm.symm)).mpr hat'
  exact hne (hexcl _ _ _ _ ⟨p', l', hstill, hmem'⟩ ⟨p, l, hat, hmem⟩)

variable {D : Contract S C} {M M' : Machine S C ρ}

/-- Two threads do not hold one lock. -/
theorem holds_unique (hM : Serial prog D.compat db₀ M) {i j : Nat} {c c' : C}
    {a : S.Advisory} (hi : M.Holds i c a) (hj : M.Holds j c' a) : i = j := by
  obtain ⟨p, l, hat, hmem⟩ := hi
  obtain ⟨p', l', hat', hmem'⟩ := hj
  by_contra hne
  exact hM.held i c p l hat j c' p' l' (fun e => hne e.symm) hat' _ hmem hmem'

/-- **A call takes effect with the locks it holds in this step.** -/
theorem step_entry (hM : Serial prog D.compat db₀ M) (hs : Step prog D.compat M M') :
    M'.log = M.log ∨ ∃ e, M'.log = M.log ++ [e] ∧ (∀ x ∈ M.log, x.thread ≠ e.thread) ∧
      ∀ a, e.Held prog a → M'.Holds e.thread e.call a ∨
        ∃ p l, M.At e.thread e.call (.running p l) ∧ Lock.advisory a ∈ l.now.held ∧
          ¬M'.At e.thread e.call (.running p l) := by
  cases hs with
  | start c hc =>
      dsimp only
      cases ho : outcome (prog c, .init) with
      | none => exact Or.inl (by rw [settle_none ho, List.append_nil])
      | some r =>
          refine Or.inr ⟨_, by rw [settle_some ho], fun x hx e => ?_, fun a hheld => ?_⟩
          · obtain ⟨st, hat, _⟩ := hM.entry x hx
            have hlt := (List.getElem?_eq_some_iff.mp hat).1
            exact absurd e (Nat.ne_of_lt hlt)
          · obtain ⟨q, l, _, hsolo, hmem⟩ := hheld
            have hend := outcome_stops (by rw [ho]; rfl) hsolo
            obtain ⟨_, hl⟩ := Prod.mk.inj hend
            rw [hl] at hmem
            cases hmem
  | stmt i c s k l hi hfree =>
      dsimp only
      have hat : Machine.At ⟨M.db, M.threads.set i ⟨c, .running (k (s.step M.db l).1)
          (s.step M.db l).2⟩, M.log ++ settle i c M.db (k (s.step M.db l).1, (s.step M.db l).2),
          M.trace⟩ i c (.running (k (s.step M.db l).1) (s.step M.db l).2) := at_set_self hi
      cases ho : outcome (k (s.step M.db l).1, (s.step M.db l).2) with
      | none => exact Or.inl (by rw [settle_none ho, List.append_nil])
      | some r =>
          refine Or.inr ⟨_, by rw [settle_some ho], fun x hx e => ?_, fun a hheld => Or.inl ?_⟩
          · exact not_logged hM hi rfl (List.mem_map.mpr ⟨x, hx, e⟩)
          · obtain ⟨q, l', hq, hsolo, hmem⟩ := hheld
            have hstand : Solo M.db (prog c, .init) (k (s.step M.db l).1, (s.step M.db l).2) :=
              (hM.solo i c _ l hi rfl).tail (.stmt s k l)
            have hend := outcome_stops (by rw [ho]; rfl) (solo_end hq hsolo hstand)
            obtain ⟨_, hl⟩ := Prod.mk.inj hend
            exact ⟨_, _, hat, hl ▸ hmem⟩
  | commit i c r l hi hw =>
      dsimp only
      have ho : outcome (Tx.commit r, l) = none := by simp [outcome, hw]
      refine Or.inr ⟨_, rfl, fun x hx e => ?_, fun a hheld => Or.inr ?_⟩
      · exact not_logged hM hi ho (List.mem_map.mpr ⟨x, hx, e⟩)
      · obtain ⟨q, l', hq, hsolo, hmem⟩ := hheld
        have hend := ended_stops (q := Tx.commit r) trivial
          (solo_end hq hsolo (hM.solo i c _ l hi ho))
        obtain ⟨_, hl⟩ := Prod.mk.inj hend
        refine ⟨.commit r, l, hi, hl ▸ hmem, fun hat => ?_⟩
        have hself : Machine.At ⟨l.now.eff M.db, M.threads.set i ⟨c, .replied r⟩,
            M.log ++ [⟨i, c, r, M.db, l.now.eff M.db⟩], M.trace ++ [.reply i]⟩ i c
            (.replied r) := at_set_self hi
        unfold Machine.At at hat hself
        rw [hself] at hat
        cases hat
  | finish i c r p l hi ho => exact Or.inl rfl
  | fail i c p l hi ho => exact Or.inl rfl

/-! ## 3. The order of readings -/

/-- The readings of calls that took effect with a lock, of the calls that hold it now, and of
    those that will. -/
structure ClockInv [LE T] (prog : C → Tx S ρ) (reading : C → Option T) (M : Machine S C ρ)
    (now : T) : Prop where
  past : ∀ e ∈ M.log, ∀ a, e.Held prog a → ∀ x ∈ reading e.call,
    x ≤ now ∨ M.Holds e.thread e.call a
  running : ∀ e ∈ M.log, ∀ a, e.Held prog a → ∀ j c, M.Holds j c a → j ≠ e.thread →
    ∀ x ∈ reading e.call, ∀ y ∈ reading c, x ≤ y
  order : ∀ e e', Before M e e' → ∀ a, e.Held prog a → e'.Held prog a →
    ∀ x ∈ reading e.call, ∀ y ∈ reading e'.call, x ≤ y

theorem clockInv_step [Preorder T] {reading : C → Option T} {now now' : T}
    (hM : Serial prog D.compat db₀ M) (hM' : Serial prog D.compat db₀ M')
    (hs : Step prog D.compat M M') (hle : now ≤ now') (hread : ReadsClock reading M M' now')
    (h : ClockInv prog reading M now) : ClockInv prog reading M' now' := by
  have hexcl : ∀ a i j c c', M'.Holds i c a → M'.Holds j c' a → i = j :=
    fun a i j c c' => holds_unique hM'
  -- entries that were in the log
  have hpast : ∀ e ∈ M.log, ∀ a, e.Held prog a → ∀ x ∈ reading e.call,
      x ≤ now' ∨ M'.Holds e.thread e.call a := by
    intro e he a hheld x hx
    rcases h.past e he a hheld x hx with hle' | ⟨p, l, hat, hmem⟩
    · exact Or.inl (hle'.trans hle)
    · by_cases hstill : M'.At e.thread e.call (.running p l)
      · exact Or.inr ⟨p, l, hstill, hmem⟩
      · exact Or.inl (hread.before _ _ p l a hat hmem hstill x hx)
  have hrunning : ∀ e ∈ M.log, ∀ a, e.Held prog a → ∀ j c, M'.Holds j c a → j ≠ e.thread →
      ∀ x ∈ reading e.call, ∀ y ∈ reading c, x ≤ y := by
    intro e he a hheld j c hj hne x hx y hy
    by_cases hbefore : M.Holds j c a
    · exact h.running e he a hheld j c hbefore hne x hx y hy
    · rcases h.past e he a hheld x hx with hle' | hholds
      · exact (hle'.trans hle).trans (hread.after j c a hj hbefore y hy)
      · exact absurd (step_takes hs (hexcl a) hj hbefore hholds).symm hne
  rcases step_entry hM hs with hlog | ⟨e₂, hlog, hnew, hholds⟩
  · refine ⟨fun e he => hpast e (hlog ▸ he), fun e he => hrunning e (hlog ▸ he),
      fun e e' hb => h.order e e' ?_⟩
    rwa [Before, hlog] at hb
  · refine ⟨fun e he a hheld x hx => ?_, fun e he a hheld j c hj hne x hx y hy => ?_,
      fun e e' hb a hheld hheld' x hx y hy => ?_⟩
    · rw [hlog] at he
      rcases List.mem_append.mp he with he | he
      · exact hpast e he a hheld x hx
      · rw [List.mem_singleton.mp he] at hheld hx ⊢
        rcases hholds a hheld with hnow | ⟨p, l, hat, hmem, hmoved⟩
        · exact Or.inr hnow
        · exact Or.inl (hread.before _ _ p l a hat hmem hmoved x hx)
    · rw [hlog] at he
      rcases List.mem_append.mp he with he | he
      · exact hrunning e he a hheld j c hj hne x hx y hy
      · rw [List.mem_singleton.mp he] at hheld hne
        refine absurd ?_ hne
        rcases hholds a hheld with hnow | ⟨p, l, hat, hmem, hmoved⟩
        · exact hexcl a _ _ _ _ hj hnow
        · -- the other thread did not move, so it held the lock before
          obtain ⟨m, hframe⟩ := step_frame hs
          have hm : e₂.thread = m := by
            by_contra hno
            exact hmoved ((hframe _ _ _ hno).mpr hat)
          obtain ⟨p', l', hat', hmem'⟩ := hj
          have hbefore := (hframe j c _ fun e => hne (e.trans hm.symm)).mp hat'
          exact holds_unique hM ⟨p', l', hbefore, hmem'⟩ ⟨p, l, hat, hmem⟩
    · rw [Before, hlog] at hb
      rcases sublist_pair_snoc hb with hold | ⟨he, rfl⟩
      · exact h.order e e' hold a hheld hheld' x hx y hy
      · have hne : e'.thread ≠ e.thread := fun heq => hnew e he heq.symm
        rcases hholds a hheld' with hnow | ⟨p, l, hat, hmem, _⟩
        · exact hrunning e he a hheld _ _ hnow hne x hx y hy
        · exact h.running e he a hheld _ _ ⟨p, l, hat, hmem⟩ hne x hx y hy

theorem clockInv_clocked [Preorder T] {reading : C → Option T} {now : T}
    (hD : Lawful D prog db₀) (h : Clocked prog D.compat db₀ reading M now) :
    ClockInv prog reading M now := by
  induction h with
  | init now =>
      refine ⟨fun e he => absurd he List.not_mem_nil, fun e he => absurd he List.not_mem_nil,
        fun e e' hb => ?_⟩
      cases hb
  | step h hs hle hread ih =>
      exact clockInv_step (serial_reachable hD h.reachable)
        (serial_reachable hD (.step h.reachable hs)) hs hle hread ih

/-- **Calls that take effect under one lock have read the clock in that order.** -/
theorem clocked_order [Preorder T] {reading : C → Option T} {now : T} (hD : Lawful D prog db₀)
    (h : Clocked prog D.compat db₀ reading M now) {e e' : Entry S C ρ} (hb : Before M e e')
    {a : S.Advisory} (hheld : e.Held prog a) (hheld' : e'.Held prog a) {x y : T}
    (hx : reading e.call = some x) (hy : reading e'.call = some y) : x ≤ y :=
  (clockInv_clocked hD h).order e e' hb a hheld hheld' x hx y hy

end Sql
