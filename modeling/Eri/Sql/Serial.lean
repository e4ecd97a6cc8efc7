/-
  File:      Eri/Sql/Serial.lean
  Subject:   Calls that keep to a contract about locks run as if each were atomic.

  A `Contract` says what calls rely on: the integrity of the committed rows, that nobody
  else stores the values a call draws, and a relation `rely L` between the committed rows
  before and after other calls commit while a call holds the locks `L`.

  * `Tx.Sound` -- the obligations of one program, statement by statement: unless the call's
    outcome is settled by the answer, the statement would answer the same on any later rows
    the rely admits, and what it wrote is allowed under the locks it holds. A rollback to
    a savepoint gives locks back, so there the call must be able to get to the same point
    again from the savepoint;
  * `solo_stable` -- a sound call that ran to some point alone on `db` runs to the same point
    alone on any `d` with `rely`;
  * `Serial`, `serial_reachable` -- the invariant of the machine: the log is a serial run of
    the calls, each thread stands where it would stand alone on the committed rows of now, no
    lock has two holders, and the log respects real time;
  * `Atomic` -- serial runs by themselves, the form in which invariants of the rows are
    proved.
-/
import Eri.Sql.Machine

namespace Sql

variable {S : Schema} {C ρ : Type}

/-! ## 1. The contract of one call -/

/-- What calls promise each other: the integrity of the rows (`inv`), what a call may rely on
    about the values it draws (`fresh`), and what other calls leave alone while a call holds
    locks (`rely`). -/
structure Contract (S : Schema) (C : Type) where
  compat : C → C → Prop
  compat_symm : ∀ {a b}, compat a b → compat b a
  inv : Db S → Prop
  fresh : C → Db S → Prop
  rely : List (Lock S) → Db S → Db S → Prop
  rely_refl : ∀ L db, rely L db db
  rely_trans : ∀ {L a b d}, rely L a b → rely L b d → rely L a d
  rely_mono : ∀ {L L' a b}, L ⊆ L' → rely L' a b → rely L a b

variable (D : Contract S C)

/-- Committed rows as a running call finds them. -/
structure Contract.Good (c : C) (db : Db S) : Prop where
  inv : D.inv db
  fresh : D.fresh c db

/-- A change of the rows from `a` to `b` made under the locks `held` keeps the integrity, the
    other calls' fresh values, and what the holder of any other lock relies on. -/
structure Contract.Allowed (c : C) (held : List (Lock S)) (a b : Db S) : Prop where
  rely : ∀ L, (∀ k ∈ L, k ∉ held) → D.rely L a b
  inv : D.inv b
  fresh : ∀ c', D.compat c c' → D.fresh c' a → D.fresh c' b

/-- What a call wrote so far is allowed under the locks it holds. -/
def Frame.Guarantee (c : C) (db : Db S) (f : Frame S) : Prop := D.Allowed c f.held db (f.eff db)

/-- Where a savepoint was set: the program from there on, the transaction, and what was known
    of the committed rows. -/
structure Mark (S : Schema) (ρ : Type) : Type 1 where
  prog : Tx S ρ
  loc : Local S
  known : Db S → Prop

/-- The innermost savepoint after a statement. -/
def Stmt.mark {β : Type} (s : Stmt S β) (k : β → Tx S ρ) (l : Local S) (K : Db S → Prop)
    (m : Option (Mark S ρ)) : Option (Mark S ρ) :=
  match s with
  | .savepoint => some ⟨.stmt .savepoint k, l, K⟩
  | .releaseSavepoint => none
  | _ => m

/-- The other calls' commits do not change what `s` answers and writes. -/
def Stmt.Keeps {β : Type} (s : Stmt S β) (c : C) (K : Db S → Prop) (db : Db S)
    (l : Local S) : Prop :=
  ∀ d, D.Good c d → K d → D.rely (s.step db l).2.now.held db d → s.step d l = s.step db l

/-- What `s` adds to the call's writes is allowed under the locks it leaves. -/
def Stmt.Guarantee {β : Type} (s : Stmt S β) (c : C) (db : Db S) (l : Local S) : Prop :=
  D.Allowed c (s.step db l).2.now.held (l.now.eff db) ((s.step db l).2.now.eff db)

/-- **The obligations of the rest of a call's program**, given what is known of the committed
    rows (`K`, from the answers so far), the transaction and the innermost savepoint. -/
def Tx.Sound (c : C) :
    Tx S ρ → Option (Mark S ρ) → (Db S → Prop) → Local S → Prop
  | .commit _, _, _, _ => True
  | .abort _, _, _, _ => True
  | .stmt s k, m, K, l => ∀ db, D.Good c db → K db → D.inv (l.now.eff db) →
      (outcome (k (s.step db l).1, (s.step db l).2)).isSome = true ∨
      if s.isRollback = true then
        ∃ m₀, m = some m₀ ∧ m₀.loc.now.held ⊆ (s.step db l).2.now.held ∧
          (s.step db l).2.now.eff = m₀.loc.now.eff ∧
          (∀ d, D.Good c d → m₀.known d →
            Solo d (m₀.prog, m₀.loc) (k (s.step db l).1, (s.step db l).2)) ∧
          (k (s.step db l).1).Sound c none m₀.known (s.step db l).2
      else
        s.Guarantee D c db l ∧ s.Keeps D c K db l ∧
          (k (s.step db l).1).Sound c (s.mark k l K m)
            (fun d => K d ∧ s.step d l = s.step db l) (s.step db l).2

/-- The program of a call keeps to the contract. -/
def Tx.Keeps (c : C) (p : Tx S ρ) : Prop := p.Sound D c none (fun _ => True) .init

/-- Knowledge that survives the commits of other calls. -/
def Contract.Stable (c : C) (L : List (Lock S)) (K : Db S → Prop) : Prop :=
  ∀ a b, D.Good c a → D.Good c b → K a → D.rely L a b → K b

/-- Wherever `K` holds, the rows a transaction sees have their integrity. -/
def Contract.Sees (c : C) (K : Db S → Prop) (l : Local S) : Prop :=
  ∀ d, D.Good c d → K d → D.inv (l.now.eff d)

variable {D} {c : C}

theorem Contract.Allowed.refl {db : Db S} {held : List (Lock S)} (h : D.inv db) :
    D.Allowed c held db db :=
  ⟨fun L _ => D.rely_refl L db, h, fun _ _ h => h⟩

theorem Contract.Allowed.trans {a b d : Db S} {H H' : List (Lock S)} (hs : H ⊆ H')
    (h : D.Allowed c H a b) (h' : D.Allowed c H' b d) : D.Allowed c H' a d :=
  ⟨fun L hL => D.rely_trans (h.rely L fun k hk hk' => hL k hk (hs hk')) (h'.rely L hL), h'.inv,
    fun c' hc hf => h'.fresh c' hc (h.fresh c' hc hf)⟩

theorem stable_step {β : Type} {s : Stmt S β} {K : Db S → Prop} {l : Local S} {db : Db S}
    (hs : s.isRollback = false) (hK : D.Stable c l.now.held K)
    (hkeep : ∀ a, D.Good c a → K a → s.step a l = s.step db l → s.Keeps D c K a l) :
    D.Stable c (s.step db l).2.now.held fun d => K d ∧ s.step d l = s.step db l := by
  intro a b ha hb hKa hr
  obtain ⟨hKa, e⟩ := hKa
  have hKb : K b := hK a b ha hb hKa (D.rely_mono (s.held_subset hs db l) hr)
  refine ⟨hKb, ?_⟩
  rw [← e] at hr ⊢
  exact hkeep a ha hKa e b hb hKb hr

/-- What is known at the innermost savepoint is still known, survives other commits, and is
    enough for the integrity of what the transaction saw there. -/
def MarkOk (D : Contract S C) (c : C) (K : Db S → Prop) (m : Option (Mark S ρ)) : Prop :=
  ∀ m₀, m = some m₀ → (∀ d, K d → m₀.known d) ∧ D.Stable c m₀.loc.now.held m₀.known ∧
    D.Sees c m₀.known m₀.loc

theorem markOk_step {β : Type} {s : Stmt S β} {k : β → Tx S ρ} {K K' : Db S → Prop}
    {l : Local S} {m : Option (Mark S ρ)} (hK : D.Stable c l.now.held K) (hs : D.Sees c K l)
    (hm : MarkOk D c K m) (hK' : ∀ d, K' d → K d) : MarkOk D c K' (s.mark k l K m) := by
  cases s with
  | savepoint =>
      intro m₀ e
      cases e
      exact ⟨hK', hK, hs⟩
  | releaseSavepoint =>
      intro m₀ e
      cases e
  | _ => exact fun m₀ e => ⟨fun d hd => (hm m₀ e).1 d (hK' d hd), (hm m₀ e).2⟩

/-- **A sound call gets to the same point on any later rows its rely admits** -- from where
    it stands, or after a rollback from its innermost savepoint. -/
theorem solo_stable : ∀ (p : Tx S ρ) (m : Option (Mark S ρ)) (K : Db S → Prop) (l : Local S),
    p.Sound D c m K l → D.Stable c l.now.held K → D.Sees c K l → MarkOk D c K m →
    ∀ {db d : Db S} {q : Tx S ρ × Local S}, D.Good c db → D.Good c d → K db →
      Solo db (p, l) q → outcome q = none → D.rely q.2.now.held db d →
      (l.now.held ⊆ q.2.now.held ∧ K d ∧ Solo d (p, l) q) ∨
      ∃ m₀, m = some m₀ ∧ m₀.loc.now.held ⊆ q.2.now.held ∧ m₀.known d ∧
        Solo d (m₀.prog, m₀.loc) q := by
  intro p
  induction p with
  | commit r =>
      intro m K l _ hK _ _ db d q hi hd hKdb hq _ hr
      cases hq.cases_head with
      | inl e =>
          subst e
          exact Or.inl ⟨List.Subset.refl _, hK db d hi hd hKdb hr, .refl⟩
      | inr h => obtain ⟨_, hc, _⟩ := h; cases hc
  | abort r =>
      intro m K l _ hK _ _ db d q hi hd hKdb hq _ hr
      cases hq.cases_head with
      | inl e =>
          subst e
          exact Or.inl ⟨List.Subset.refl _, hK db d hi hd hKdb hr, .refl⟩
      | inr h => obtain ⟨_, hc, _⟩ := h; cases hc
  | stmt s k ih =>
      intro m K l hs hK hI hm db d q hi hd hKdb hq ho hr
      cases hq.cases_head with
      | inl e =>
          subst e
          exact Or.inl ⟨List.Subset.refl _, hK db d hi hd hKdb hr, .refl⟩
      | inr h =>
          obtain ⟨a, ha, hq⟩ := h
          cases ha
          have hopen : ¬(outcome (k (s.step db l).1, (s.step db l).2)).isSome = true := by
            -- a settled outcome leaves no later point
            intro hset
            have e := outcome_stops hset hq
            subst e
            rw [ho] at hset
            cases hset
          have hs' := (hs db hi hKdb (hI db hi hKdb)).resolve_left hopen
          split at hs'
          · rename_i hroll
            obtain ⟨m₀, e, hheld, heff, hagain, hrest⟩ := hs'
            obtain ⟨hkn, hst₀, hsee₀⟩ := hm m₀ e
            have hst : D.Stable c (s.step db l).2.now.held m₀.known :=
              fun a b ha hb hKa hab => hst₀ a b ha hb hKa (D.rely_mono hheld hab)
            have hsee : D.Sees c m₀.known (s.step db l).2 := fun a ha hKa => by
              rw [heff]
              exact hsee₀ a ha hKa
            rcases ih _ none m₀.known _ hrest hst hsee (fun _ e => by cases e) hi hd
              (hkn db hKdb) hq ho hr with ⟨h1, h2, h3⟩ | ⟨_, e', _⟩
            · exact Or.inr ⟨m₀, e, List.Subset.trans hheld h1, h2, (hagain d hd h2).trans h3⟩
            · cases e'
          · rename_i hroll
            have hroll : s.isRollback = false := by simpa using hroll
            obtain ⟨_, hkeep, hrest⟩ := hs'
            have hsub := s.held_subset hroll db l
            have hsame : ∀ a, D.Good c a → K a → s.step a l = s.step db l →
                s.Guarantee D c a l ∧ s.Keeps D c K a l := by
              intro a ha hKa e
              have hs'' := (hs a ha hKa (hI a ha hKa)).resolve_left (by rw [e]; exact hopen)
              rw [if_neg (by simp [hroll])] at hs''
              exact ⟨hs''.1, hs''.2.1⟩
            have hst : D.Stable c _ (fun d => K d ∧ s.step d l = s.step db l) :=
              stable_step hroll hK fun a ha hKa e => (hsame a ha hKa e).2
            have hsee : D.Sees c (fun d => K d ∧ s.step d l = s.step db l) (s.step db l).2 := by
              intro a ha hKa
              have := (hsame a ha hKa.1 hKa.2).1.inv
              rwa [hKa.2] at this
            have hback : D.rely (s.step db l).2.now.held db d → K d →
                SoloStep d (.stmt s k, l) (k (s.step db l).1, (s.step db l).2) :=
              fun h hKd => by
                have : SoloStep d _ _ := .stmt s k l
                rwa [hkeep d hd hKd h] at this
            rcases ih _ _ _ _ hrest hst hsee (markOk_step hK hI hm fun _ h => h.1) hi hd
              ⟨hKdb, rfl⟩ hq ho hr with ⟨h1, ⟨h2, _⟩, h3⟩ | ⟨m₀, e, h1, h2, h3⟩
            · exact Or.inl ⟨List.Subset.trans hsub h1, h2,
                Relation.ReflTransGen.head (hback (D.rely_mono h1 hr) h2) h3⟩
            · cases s with
              | savepoint => cases e; exact Or.inl ⟨h1, h2, h3⟩
              | releaseSavepoint => cases e
              | _ => exact Or.inr ⟨m₀, e, h1, h2, h3⟩

/-- What a call wrote, at the point it stands and at its savepoints, is allowed under the
    locks it holds there. -/
theorem solo_guarantee {db : Db S} (hi : D.Good c db) :
    ∀ (p : Tx S ρ) (m : Option (Mark S ρ)) (K : Db S → Prop) (l : Local S),
    p.Sound D c m K l → K db → (∀ m₀, m = some m₀ → m₀.known db) →
    l.now.Guarantee D c db → (∀ f ∈ l.saved, f.Guarantee D c db) →
    ∀ {q : Tx S ρ × Local S}, Solo db (p, l) q → outcome q = none →
      q.2.now.Guarantee D c db := by
  intro p
  induction p with
  | commit r =>
      intro m K l _ _ _ hg _ q hq _
      cases hq.cases_head with
      | inl e => subst e; exact hg
      | inr h => obtain ⟨_, hc, _⟩ := h; cases hc
  | abort r =>
      intro m K l _ _ _ hg _ q hq _
      cases hq.cases_head with
      | inl e => subst e; exact hg
      | inr h => obtain ⟨_, hc, _⟩ := h; cases hc
  | stmt s k ih =>
      intro m K l hs hK hm hg hsaved q hq ho
      cases hq.cases_head with
      | inl e => subst e; exact hg
      | inr h =>
          obtain ⟨a, ha, hq⟩ := h
          cases ha
          rcases hs db hi hK hg.inv with hset | hs'
          · have e := outcome_stops hset hq
            subst e
            rw [ho] at hset
            cases hset
          · split at hs'
            · rename_i hroll
              obtain ⟨m₀, e, _, _, _, hrest⟩ := hs'
              cases s with
              | rollbackToSavepoint =>
                  refine ih _ none m₀.known _ hrest (hm m₀ e) (fun _ e => by cases e) ?_ ?_
                    hq ho
                  · cases l with
                    | mk now saved =>
                      cases saved with
                      | nil => exact hg
                      | cons f saved => exact hsaved f List.mem_cons_self
                  · exact fun f hf => hsaved f (List.mem_of_mem_tail hf)
              | _ => cases hroll
            · rename_i hroll
              have hroll : s.isRollback = false := by simpa using hroll
              obtain ⟨hgs, _, hrest⟩ := hs'
              have hnow : (s.step db l).2.now.Guarantee D c db :=
                hg.trans (s.held_subset hroll db l) hgs
              refine ih _ _ _ _ hrest ⟨hK, rfl⟩ ?_ hnow ?_ hq ho
              · cases s with
                | savepoint => intro m₀ e; cases e; exact hK
                | releaseSavepoint => intro m₀ e; cases e
                | _ => exact hm
              · cases s with
                | savepoint => exact List.forall_mem_cons.mpr ⟨hg, hsaved⟩
                | releaseSavepoint => exact fun f hf => hsaved f (List.mem_of_mem_tail hf)
                | selectForUpdate t p =>
                    simp only [Stmt.step]
                    split <;> exact hsaved
                | update t p set =>
                    simp only [Stmt.step]
                    split <;> exact hsaved
                | rollbackToSavepoint => cases hroll
                | _ => exact hsaved

/-- Every call comes to an end. -/
theorem solo_ends (db : Db S) : ∀ (p : Tx S ρ) (l : Local S),
    ∃ r l', Solo db (p, l) (.commit r, l') ∨ Solo db (p, l) (.abort r, l') := by
  intro p
  induction p with
  | commit r => exact fun l => ⟨r, l, Or.inl .refl⟩
  | abort r => exact fun l => ⟨r, l, Or.inr .refl⟩
  | stmt s k ih =>
      intro l
      obtain ⟨r, l', h⟩ := ih (s.step db l).1 (s.step db l).2
      have hs : SoloStep db (.stmt s k, l) (k (s.step db l).1, (s.step db l).2) := .stmt s k l
      rcases h with h | h
      · exact ⟨r, l', Or.inl (.head hs h)⟩
      · exact ⟨r, l', Or.inr (.head hs h)⟩

/-- **A call that keeps to the contract changes the rows as it may**, alone under the locks
    it holds at its end. -/
theorem run_allowed {db : Db S} {p : Tx S ρ} (hk : p.Keeps D c) (hi : D.Good c db) :
    ∃ held, D.Allowed c held db (p.run db).2 := by
  have hsame : (p.run db).2 = db → ∃ held, D.Allowed c held db (p.run db).2 := by
    intro e
    rw [e]
    exact ⟨[], Contract.Allowed.refl hi.inv⟩
  obtain ⟨r, l, h | h⟩ := solo_ends db p .init
  · cases hw : l.now.wrote with
    | false =>
        refine hsame ?_
        rw [run_of_solo_outcome h (show outcome _ = some r by simp [outcome, hw])]
    | true =>
        have hg := solo_guarantee hi _ _ _ _ hk trivial (fun _ e => by cases e)
          (Contract.Allowed.refl hi.inv) (fun f hf => absurd hf List.not_mem_nil) h
          (by simp [outcome, hw])
        rw [run_of_solo_commit h]
        exact ⟨_, hg⟩
  · refine hsame ?_
    rw [run_of_solo_outcome h rfl]

/-! ## 2. Serial runs -/

/-- **A serial run**: each call runs alone on the rows the one before it left. -/
inductive Atomic (prog : C → Tx S ρ) (compat : C → C → Prop) (db₀ : Db S) :
    List (Entry S C ρ) → Db S → Prop where
  | nil : Atomic prog compat db₀ [] db₀
  | snoc {log : List (Entry S C ρ)} {db : Db S} (h : Atomic prog compat db₀ log db)
      (e : Entry S C ρ) (hb : e.before = db) (hrun : (prog e.call).run db = (e.reply, e.after))
      (hc : ∀ e' ∈ log, compat e'.call e.call) : Atomic prog compat db₀ (log ++ [e]) e.after

/-- The laws of a contract: its initial rows, and each call's own program. -/
structure Lawful (D : Contract S C) (prog : C → Tx S ρ) (db₀ : Db S) : Prop where
  inv : D.inv db₀
  fresh : ∀ c, D.fresh c db₀
  keeps : ∀ c, (prog c).Keeps D c

section Atomic

variable {prog : C → Tx S ρ} {db₀ db : Db S} {log : List (Entry S C ρ)}

/-- **Serial runs keep the integrity of the rows and the fresh values of calls to come.** -/
theorem Atomic.good (hD : Lawful D prog db₀) (h : Atomic prog D.compat db₀ log db) :
    D.inv db ∧ ∀ c, (∀ e ∈ log, D.compat e.call c) → D.fresh c db := by
  induction h with
  | nil => exact ⟨hD.inv, fun c _ => hD.fresh c⟩
  | snoc h e hb hrun hc ih =>
      obtain ⟨held, hallowed⟩ := run_allowed (hD.keeps e.call) ⟨ih.1, ih.2 e.call hc⟩
      rw [hrun] at hallowed
      refine ⟨hallowed.inv, fun c hcomp => hallowed.fresh c (hcomp e ?_)
        (ih.2 c fun e' he' => hcomp e' ?_)⟩
      · exact List.mem_append_right _ List.mem_cons_self
      · exact List.mem_append_left _ he'

/-- A serial run up to each of its calls. -/
theorem Atomic.split {l₁ l₂ : List (Entry S C ρ)} {e : Entry S C ρ}
    (h : Atomic prog D.compat db₀ log db) (hl : log = l₁ ++ e :: l₂) :
    Atomic prog D.compat db₀ l₁ e.before ∧ Atomic prog D.compat db₀ (l₁ ++ [e]) e.after := by
  induction h generalizing l₂ with
  | nil => simp at hl
  | snoc h e' hb hrun hc ih =>
      rcases List.eq_nil_or_concat l₂ with rfl | ⟨l₂, x, rfl⟩
      · obtain ⟨rfl, e₁⟩ := List.append_inj' hl rfl
        cases e₁
        subst hb
        exact ⟨h, .snoc h _ rfl hrun hc⟩
      · rw [List.concat_eq_append, ← List.cons_append, ← List.append_assoc] at hl
        exact ih (List.append_inj' hl rfl).1

/-- What a call of a serial run found, returned and left. -/
theorem Atomic.entry (hD : Lawful D prog db₀) {e : Entry S C ρ}
    (h : Atomic prog D.compat db₀ log db) (he : e ∈ log) :
    D.Good e.call e.before ∧ (prog e.call).run e.before = (e.reply, e.after) := by
  induction h with
  | nil => cases he
  | snoc h e' hb hrun hc ih =>
      rcases List.mem_append.mp he with he | he
      · exact ih he
      · rw [List.mem_singleton] at he
        subst he
        rw [hb]
        exact ⟨⟨(h.good hD).1, (h.good hD).2 _ hc⟩, hrun⟩

/-- Each call changes the rows as it may. -/
theorem Atomic.allowed (hD : Lawful D prog db₀) {e : Entry S C ρ}
    (h : Atomic prog D.compat db₀ log db) (he : e ∈ log) :
    ∃ held, D.Allowed e.call held e.before e.after := by
  obtain ⟨hgood, hrun⟩ := h.entry hD he
  have := run_allowed (hD.keeps e.call) hgood
  rwa [hrun] at this

end Atomic

/-! ## 3. The invariant of the machine -/

/-- The call of thread `i` took effect and will return `r`, or has returned it. -/
def Status.Settled (st : Status S ρ) (r : ρ) : Prop :=
  st = .replied r ∨ ∃ p l, st = .running p l ∧ outcome (p, l) = some r

/-- **The machine stands where a serial run stands**, up to calls under way, each of which
    stands where it would stand alone on the committed rows of now. -/
structure Serial (prog : C → Tx S ρ) (compat : C → C → Prop) (db₀ : Db S)
    (M : Machine S C ρ) : Prop where
  atomic : Atomic prog compat db₀ M.log M.db
  apart : ∀ i j c c' st st', i ≠ j → M.At i c st → M.At j c' st' → compat c c'
  entry : ∀ e ∈ M.log, ∃ st, M.At e.thread e.call st ∧ st.Settled e.reply
  once : (M.log.map (·.thread)).Nodup
  logged : ∀ i c st r, M.At i c st → st.Settled r → ∃ e ∈ M.log, e.thread = i ∧ e.reply = r
  solo : ∀ i c p l, M.At i c (.running p l) → outcome (p, l) = none →
    Solo M.db (prog c, .init) (p, l)
  held : ∀ i c p l, M.At i c (.running p l) → M.Free i l.now.held
  started : ∀ j, Event.start j ∈ M.trace → j < M.threads.length
  returned : ∀ i, Event.reply i ∈ M.trace → i ∈ M.log.map (·.thread)
  order : ∀ i j, [Event.reply i, Event.start j].Sublist M.trace → j ∈ M.log.map (·.thread) →
    [i, j].Sublist (M.log.map (·.thread))

variable {prog : C → Tx S ρ}

theorem settle_none {i : Nat} {c : C} {db : Db S} {a : Tx S ρ × Local S}
    (h : outcome a = none) : settle i c db a = [] := by
  unfold settle
  rw [h]

theorem settle_some {i : Nat} {c : C} {db : Db S} {a : Tx S ρ × Local S} {r : ρ}
    (h : outcome a = some r) : settle i c db a = [⟨i, c, r, db, db⟩] := by
  unfold settle
  rw [h]

theorem sublist_pair_snoc {α : Type} {a b x : α} {l : List α} (h : [a, b].Sublist (l ++ [x])) :
    [a, b].Sublist l ∨ (a ∈ l ∧ b = x) := by
  rw [List.sublist_append_iff] at h
  obtain ⟨l₁, l₂, e, h₁, h₂⟩ := h
  cases l₁ with
  | nil =>
      have := h₂.length_le
      simp only [List.nil_append] at e
      subst e
      simp at this
  | cons y ys =>
      cases ys with
      | nil =>
          simp only [List.cons_append, List.nil_append, List.cons.injEq] at e
          obtain ⟨rfl, rfl⟩ := e
          right
          exact ⟨List.singleton_sublist.mp h₁,
            List.mem_singleton.mp (List.singleton_sublist.mp h₂)⟩
      | cons z zs =>
          simp only [List.cons_append, List.cons.injEq] at e
          obtain ⟨rfl, rfl, e⟩ := e
          rw [(List.append_eq_nil_iff.mp e.symm).1] at h₁
          exact Or.inl h₁

theorem settled_replied {r r' : ρ} : (Status.replied r : Status S ρ).Settled r' ↔ r = r' := by
  constructor
  · rintro (e | ⟨_, _, e, _⟩)
    · cases e; rfl
    · cases e
  · rintro rfl
    exact Or.inl rfl

theorem settled_running {p : Tx S ρ} {l : Local S} {r : ρ} :
    (Status.running p l).Settled r ↔ outcome (p, l) = some r := by
  constructor
  · rintro (e | ⟨_, _, e, h⟩)
    · cases e
    · cases e; exact h
  · exact fun h => Or.inr ⟨p, l, rfl, h⟩

theorem not_settled_failed {r : ρ} : ¬(Status.failed : Status S ρ).Settled r := by
  rintro (e | ⟨_, _, e, _⟩)
  · cases e
  · cases e

section Set

variable {db₀ db : Db S} {M : Machine S C ρ} {i : Nat} {st st' : Status S ρ}

theorem at_set_self {log : List (Entry S C ρ)} {tr : List Event} (hi : M.At i c st) :
    Machine.At ⟨db, M.threads.set i ⟨c, st'⟩, log, tr⟩ i c st' :=
  List.getElem?_set_self (List.getElem?_eq_some_iff.mp hi).1

theorem at_set_ne {log : List (Entry S C ρ)} {tr : List Event} {j : Nat} {c' : C}
    {s : Status S ρ} (h : j ≠ i) :
    Machine.At ⟨db, M.threads.set i ⟨c, st'⟩, log, tr⟩ j c' s ↔ M.At j c' s := by
  unfold Machine.At
  rw [List.getElem?_set_ne (Ne.symm h)]

/-- What stands at a thread after thread `i` moved on. -/
theorem at_set_cases {log : List (Entry S C ρ)} {tr : List Event} (hi : M.At i c st) {j : Nat}
    {c' : C} {s : Status S ρ}
    (h : Machine.At ⟨db, M.threads.set i ⟨c, st'⟩, log, tr⟩ j c' s) :
    (j = i ∧ c' = c ∧ s = st') ∨ (j ≠ i ∧ M.At j c' s) := by
  by_cases e : j = i
  · subst e
    have h' : Machine.At ⟨db, M.threads.set j ⟨c, st'⟩, log, tr⟩ j c st' := at_set_self hi
    unfold Machine.At at h h'
    rw [h'] at h
    cases h
    exact Or.inl ⟨rfl, rfl, rfl⟩
  · exact Or.inr ⟨e, (at_set_ne e).mp h⟩

theorem apart_set {log : List (Entry S C ρ)} {tr : List Event} (hM : Serial prog D.compat db₀ M)
    (hi : M.At i c st) (a b : Nat) (c₁ c₂ : C) (s₁ s₂ : Status S ρ) (hab : a ≠ b)
    (h₁ : Machine.At ⟨db, M.threads.set i ⟨c, st'⟩, log, tr⟩ a c₁ s₁)
    (h₂ : Machine.At ⟨db, M.threads.set i ⟨c, st'⟩, log, tr⟩ b c₂ s₂) : D.compat c₁ c₂ := by
  rcases at_set_cases hi h₁ with ⟨rfl, rfl, rfl⟩ | ⟨_, h₁'⟩
  · rcases at_set_cases hi h₂ with ⟨rfl, _, _⟩ | ⟨_, h₂'⟩
    · exact absurd rfl hab
    · exact hM.apart _ _ _ _ _ _ hab hi h₂'
  · rcases at_set_cases hi h₂ with ⟨rfl, rfl, rfl⟩ | ⟨_, h₂'⟩
    · exact hM.apart _ _ _ _ _ _ hab h₁' hi
    · exact hM.apart _ _ _ _ _ _ hab h₁' h₂'

theorem held_set {log : List (Entry S C ρ)} {tr : List Event} (hM : Serial prog D.compat db₀ M)
    (hi : M.At i c st) (hfree : ∀ p l, st' = .running p l → M.Free i l.now.held) (a : Nat)
    (c₁ : C) (p : Tx S ρ) (l : Local S)
    (h₁ : Machine.At ⟨db, M.threads.set i ⟨c, st'⟩, log, tr⟩ a c₁ (.running p l)) :
    Machine.Free ⟨db, M.threads.set i ⟨c, st'⟩, log, tr⟩ a l.now.held := by
  intro b c₂ p₂ l₂ hab h₂ x hx
  rcases at_set_cases hi h₁ with ⟨rfl, _, e⟩ | ⟨_, h₁'⟩
  · rcases at_set_cases hi h₂ with ⟨rfl, _, _⟩ | ⟨hne, h₂'⟩
    · exact absurd rfl hab
    · exact hfree p l e.symm b c₂ p₂ l₂ hne h₂' x hx
  · rcases at_set_cases hi h₂ with ⟨rfl, _, e⟩ | ⟨hne, h₂'⟩
    · exact fun hx' => hfree p₂ l₂ e.symm a c₁ p l hab.symm h₁' x hx' hx
    · exact hM.held _ _ _ _ h₁' b c₂ p₂ l₂ hab h₂' x hx

/-- A thread whose outcome is open has not taken effect. -/
theorem not_logged (hM : Serial prog D.compat db₀ M) {p : Tx S ρ} {l : Local S}
    (hi : M.At i c (.running p l)) (ho : outcome (p, l) = none) :
    i ∉ M.log.map (·.thread) := by
  intro h
  obtain ⟨e, he, rfl⟩ := List.mem_map.mp h
  obtain ⟨s, hs, hset⟩ := hM.entry e he
  unfold Machine.At at hs hi
  rw [hi] at hs
  cases hs
  rw [settled_running, ho] at hset
  cases hset

/-- The order of effects respects the order of calls when one more call takes effect. -/
theorem order_snoc {j : Nat} {log : List (Entry S C ρ)} {e : Entry S C ρ} {tr : List Event}
    (ho : ∀ i j, [Event.reply i, Event.start j].Sublist tr → j ∈ log.map (·.thread) →
      [i, j].Sublist (log.map (·.thread)))
    (hr : ∀ i, Event.reply i ∈ tr → i ∈ log.map (·.thread))
    (hs : [Event.reply i, Event.start j].Sublist tr)
    (hj : j ∈ (log ++ [e]).map (·.thread)) : [i, j].Sublist ((log ++ [e]).map (·.thread)) := by
  rw [List.map_append] at hj ⊢
  rcases List.mem_append.mp hj with h | h
  · exact (ho i j hs h).trans (List.sublist_append_left ..)
  · rw [List.map_singleton, List.mem_singleton] at h
    subst h
    have hi := hr i (hs.subset List.mem_cons_self)
    exact (List.singleton_sublist.mpr hi).append (List.Sublist.refl _)

/-- A step that gives no call an effect keeps the invariant. -/
theorem serial_keep {tr : List Event} (hM : Serial prog D.compat db₀ M) (hi : M.At i c st)
    (hst : ∀ r, st'.Settled r ↔ st.Settled r)
    (hsolo : ∀ p l, st' = .running p l → outcome (p, l) = none →
      Solo M.db (prog c, .init) (p, l))
    (hfree : ∀ p l, st' = .running p l → M.Free i l.now.held)
    (htr : tr = [] ∨ tr = [.reply i] ∧ ∃ r, st.Settled r) :
    Serial prog D.compat db₀ ⟨M.db, M.threads.set i ⟨c, st'⟩, M.log, M.trace ++ tr⟩ where
  atomic := hM.atomic
  apart := apart_set hM hi
  entry e he := by
    obtain ⟨s, hs, hset⟩ := hM.entry e he
    by_cases h : e.thread = i
    · unfold Machine.At at hs hi
      rw [h, hi] at hs
      cases hs
      rw [h]
      exact ⟨st', at_set_self hi, (hst _).mpr hset⟩
    · exact ⟨s, (at_set_ne h).mpr hs, hset⟩
  once := hM.once
  logged j c' s r hj hset := by
    rcases at_set_cases hi hj with ⟨rfl, rfl, rfl⟩ | ⟨_, hj⟩
    · exact hM.logged _ _ _ _ hi ((hst r).mp hset)
    · exact hM.logged _ _ _ _ hj hset
  solo j c' p l hj ho := by
    rcases at_set_cases hi hj with ⟨rfl, rfl, e⟩ | ⟨_, hj⟩
    · exact hsolo p l e.symm ho
    · exact hM.solo _ _ _ _ hj ho
  held := held_set hM hi hfree
  started j hj := by
    rw [List.length_set]
    rcases htr with rfl | ⟨rfl, _⟩
    · exact hM.started j (by simpa using hj)
    · exact hM.started j (by simpa using hj)
  returned j hj := by
    rcases htr with rfl | ⟨rfl, r, hr⟩
    · exact hM.returned j (by simpa using hj)
    · rcases List.mem_append.mp hj with hj | hj
      · exact hM.returned j hj
      · simp only [List.mem_singleton, Event.reply.injEq] at hj
        subst hj
        obtain ⟨e, he, hej, _⟩ := hM.logged _ _ _ _ hi hr
        exact List.mem_map.mpr ⟨e, he, hej⟩
  order a b hs hb := by
    rcases htr with rfl | ⟨rfl, _⟩
    · exact hM.order a b (by simpa using hs) hb
    · rcases sublist_pair_snoc hs with hs | ⟨_, e⟩
      · exact hM.order a b hs hb
      · cases e

/-- **A call takes effect**: alone on the committed rows it returns and leaves what the step
    logs. -/
theorem serial_effect {p : Tx S ρ} {l : Local S} {r : ρ} {tr : List Event}
    (hM : Serial prog D.compat db₀ M) (hi : M.At i c (.running p l)) (ho : outcome (p, l) = none)
    (hrun : (prog c).run M.db = (r, db)) (hst : ∀ r', st'.Settled r' ↔ r = r')
    (hothers : ∀ j c' p' l', j ≠ i → M.At j c' (.running p' l') → outcome (p', l') = none →
      Solo db (prog c', .init) (p', l'))
    (hfree : ∀ p l, st' = .running p l → M.Free i l.now.held)
    (htr : tr = [] ∨ tr = [.reply i]) :
    Serial prog D.compat db₀ ⟨db, M.threads.set i ⟨c, st'⟩, M.log ++ [⟨i, c, r, M.db, db⟩],
      M.trace ++ tr⟩ := by
  have hnot := not_logged hM hi ho
  have htrace : ∀ j, Event.reply j ∈ M.trace ++ tr → Event.reply j ∈ M.trace ∨ j = i := by
    intro j hj
    rcases List.mem_append.mp hj with hj | hj
    · exact Or.inl hj
    · rcases htr with rfl | rfl
      · cases hj
      · simp only [List.mem_singleton, Event.reply.injEq] at hj
        exact Or.inr hj
  refine ⟨?_, apart_set hM hi, ?_, ?_, ?_, ?_, held_set hM hi hfree, ?_, ?_, ?_⟩
  · refine Atomic.snoc hM.atomic ⟨i, c, r, M.db, db⟩ rfl hrun fun e he => ?_
    obtain ⟨s, hs, _⟩ := hM.entry e he
    refine hM.apart _ _ _ _ _ _ (fun h => hnot ?_) hs hi
    exact h ▸ List.mem_map_of_mem he
  · intro e he
    rcases List.mem_append.mp he with he | he
    · obtain ⟨s, hs, hset⟩ := hM.entry e he
      refine ⟨s, (at_set_ne fun h => hnot ?_).mpr hs, hset⟩
      exact h ▸ List.mem_map_of_mem he
    · rw [List.mem_singleton] at he
      subst he
      exact ⟨st', at_set_self hi, (hst r).mpr rfl⟩
  · rw [List.map_append, List.nodup_append]
    exact ⟨hM.once, List.nodup_singleton _, fun a ha b hb e => by
      simp only [List.map_cons, List.map_nil, List.mem_singleton] at hb
      exact hnot (hb ▸ e ▸ ha)⟩
  · intro j c' s r' hj hset
    rcases at_set_cases hi hj with ⟨rfl, rfl, rfl⟩ | ⟨_, hj⟩
    · exact ⟨_, List.mem_append_right _ List.mem_cons_self, rfl, (hst r').mp hset⟩
    · obtain ⟨e, he, h⟩ := hM.logged _ _ _ _ hj hset
      exact ⟨e, List.mem_append_left _ he, h⟩
  · intro j c' p' l' hj ho'
    rcases at_set_cases hi hj with ⟨rfl, rfl, e⟩ | ⟨hne, hj⟩
    · subst e
      have := (hst r).mpr rfl
      rw [settled_running, ho'] at this
      cases this
    · exact hothers j c' p' l' hne hj ho'
  · intro j hj
    rw [List.length_set]
    refine hM.started j ?_
    rcases htr with rfl | rfl
    · simpa using hj
    · simpa using hj
  · intro j hj
    rw [List.map_append, List.mem_append]
    rcases htrace j hj with hj | rfl
    · exact Or.inl (hM.returned j hj)
    · exact Or.inr List.mem_cons_self
  · intro a b hs hb
    have hs : [Event.reply a, Event.start b].Sublist M.trace := by
      rcases htr with rfl | rfl
      · simpa using hs
      · rcases sublist_pair_snoc hs with hs | ⟨_, e⟩
        · exact hs
        · cases e
    exact order_snoc hM.order hM.returned hs hb

end Set

/-! ## 4. Every reachable machine is serial -/

section Start

variable {db₀ : Db S} {M : Machine S C ρ}

theorem at_start_cases {log : List (Entry S C ρ)} {tr : List Event} {th : Thread S C ρ}
    {j : Nat} {c' : C} {s : Status S ρ}
    (h : Machine.At ⟨M.db, M.threads ++ [th], log, tr⟩ j c' s) :
    (j = M.threads.length ∧ th = ⟨c', s⟩) ∨ M.At j c' s := by
  unfold Machine.At at h
  rw [List.getElem?_append] at h
  split at h
  · exact Or.inr h
  · rename_i hlt
    left
    have hj := (List.getElem?_eq_some_iff.mp h).1
    simp only [List.length_singleton] at hj
    have e : j = M.threads.length := by omega
    subst e
    simp only [Nat.sub_self, List.getElem?_cons_zero, Option.some.injEq] at h
    exact ⟨rfl, h⟩

theorem at_start_of {log : List (Entry S C ρ)} {tr : List Event} {th : Thread S C ρ} {j : Nat}
    {c' : C} {s : Status S ρ} (h : M.At j c' s) :
    Machine.At ⟨M.db, M.threads ++ [th], log, tr⟩ j c' s := by
  unfold Machine.At at h ⊢
  rw [List.getElem?_append_left (List.getElem?_eq_some_iff.mp h).1]
  exact h

/-- A call starts. When its program ends without a statement, that is also its effect. -/
theorem serial_start (hM : Serial prog D.compat db₀ M) (hc : ∀ th ∈ M.threads, D.compat th.call c) :
    Serial prog D.compat db₀ ⟨M.db, M.threads ++ [⟨c, .running (prog c) .init⟩],
      M.log ++ settle M.threads.length c M.db (prog c, .init),
      M.trace ++ [.start M.threads.length]⟩ := by
  have hnew : ∀ j c' s, M.At j c' s → j < M.threads.length := fun j c' s h =>
    (List.getElem?_eq_some_iff.mp h).1
  have hmem : ∀ j c' s, M.At j c' s → D.compat c' c := fun j c' s h =>
    hc ⟨c', s⟩ (List.mem_of_getElem? h)
  have hlt : ∀ e ∈ M.log, e.thread < M.threads.length := fun e he => by
    obtain ⟨s, hs, _⟩ := hM.entry e he
    exact hnew _ _ _ hs
  have hself : Machine.At ⟨M.db, M.threads ++ [⟨c, .running (prog c) .init⟩],
      M.log ++ settle M.threads.length c M.db (prog c, .init),
      M.trace ++ [.start M.threads.length]⟩ M.threads.length c
      (.running (prog c) .init) := by
    unfold Machine.At
    rw [List.getElem?_append_right (Nat.le_refl _), Nat.sub_self]
    rfl
  have hsettle : ∀ e ∈ settle M.threads.length c M.db (prog c, Local.init),
      outcome (prog c, Local.init) = some e.reply ∧
        e = ⟨M.threads.length, c, e.reply, M.db, M.db⟩ := by
    intro e he
    cases ho : outcome (prog c, Local.init) with
    | none => rw [settle_none ho] at he; cases he
    | some r =>
        rw [settle_some ho, List.mem_singleton] at he
        subst he
        exact ⟨rfl, rfl⟩
  refine ⟨?_, ?_, ?_, ?_, ?_, ?_, ?_, ?_, ?_, ?_⟩
  · cases ho : outcome (prog c, Local.init) with
    | none => rw [settle_none ho, List.append_nil]; exact hM.atomic
    | some r =>
        rw [settle_some ho]
        refine Atomic.snoc hM.atomic ⟨_, c, r, M.db, M.db⟩ rfl ?_ fun e he => ?_
        · exact run_of_solo_outcome .refl ho
        · obtain ⟨s, hs, _⟩ := hM.entry e he
          exact hmem _ _ _ hs
  · intro a b c₁ c₂ s₁ s₂ hab h₁ h₂
    rcases at_start_cases h₁ with ⟨rfl, e⟩ | h₁'
    · rcases at_start_cases h₂ with ⟨rfl, _⟩ | h₂'
      · exact absurd rfl hab
      · cases e
        exact D.compat_symm (hmem _ _ _ h₂')
    · rcases at_start_cases h₂ with ⟨rfl, e⟩ | h₂'
      · cases e
        exact hmem _ _ _ h₁'
      · exact hM.apart _ _ _ _ _ _ hab h₁' h₂'
  · intro e he
    rcases List.mem_append.mp he with he | he
    · obtain ⟨s, hs, hset⟩ := hM.entry e he
      exact ⟨s, at_start_of hs, hset⟩
    · obtain ⟨ho, e'⟩ := hsettle e he
      rw [e']
      exact ⟨_, hself, settled_running.mpr ho⟩
  · cases ho : outcome (prog c, Local.init) with
    | none => rw [settle_none ho, List.append_nil]; exact hM.once
    | some r =>
        rw [settle_some ho, List.map_append, List.nodup_append]
        refine ⟨hM.once, List.nodup_singleton _, fun a ha b hb e => ?_⟩
        simp only [List.map_cons, List.map_nil, List.mem_singleton] at hb
        obtain ⟨x, hx, rfl⟩ := List.mem_map.mp ha
        have := hlt x hx
        omega
  · intro j c' s r hj hset
    rcases at_start_cases hj with ⟨rfl, e⟩ | hj
    · cases e
      rw [settled_running] at hset
      rw [settle_some hset]
      exact ⟨_, List.mem_append_right _ List.mem_cons_self, rfl, rfl⟩
    · obtain ⟨e, he, h⟩ := hM.logged _ _ _ _ hj hset
      exact ⟨e, List.mem_append_left _ he, h⟩
  · intro j c' p l hj ho
    rcases at_start_cases hj with ⟨rfl, e⟩ | hj
    · cases e
      exact .refl
    · exact hM.solo _ _ _ _ hj ho
  · intro a c₁ p₁ l₁ h₁ b c₂ p₂ l₂ hab h₂ x hx
    rcases at_start_cases h₁ with ⟨rfl, e⟩ | h₁
    · cases e
      cases hx
    · rcases at_start_cases h₂ with ⟨rfl, e⟩ | h₂
      · cases e
        exact List.not_mem_nil
      · exact hM.held _ _ _ _ h₁ b c₂ p₂ l₂ hab h₂ x hx
  · intro j hj
    rw [List.length_append, List.length_singleton]
    rcases List.mem_append.mp hj with hj | hj
    · have := hM.started j hj
      omega
    · simp only [List.mem_singleton, Event.start.injEq] at hj
      omega
  · intro j hj
    rw [List.map_append, List.mem_append]
    rcases List.mem_append.mp hj with hj | hj
    · exact Or.inl (hM.returned j hj)
    · simp at hj
  · intro a b hs hb
    rcases sublist_pair_snoc hs with hs | ⟨ha, e⟩
    · have hold : b < M.threads.length := hM.started b (hs.subset (by simp))
      rw [List.map_append] at hb ⊢
      rcases List.mem_append.mp hb with h | h
      · exact (hM.order a b hs h).trans (List.sublist_append_left ..)
      · obtain ⟨x, hx, rfl⟩ := List.mem_map.mp h
        rw [(hsettle x hx).2] at hold
        exact absurd hold (Nat.lt_irrefl _)
    · cases e
      have ha' := hM.returned a ha
      rw [List.map_append] at hb ⊢
      rcases List.mem_append.mp hb with h | h
      · obtain ⟨x, hx, e⟩ := List.mem_map.mp h
        have := hlt x hx
        omega
      · exact (List.singleton_sublist.mpr ha').append (List.singleton_sublist.mpr h)

end Start

/-- **One step of the machine keeps it serial.** -/
theorem serial_step {db₀ : Db S} {M M' : Machine S C ρ} (hD : Lawful D prog db₀)
    (hM : Serial prog D.compat db₀ M) (hs : Step prog D.compat M M') :
    Serial prog D.compat db₀ M' := by
  have hgood : ∀ i c p l, M.At i c (.running p l) → outcome (p, l) = none →
      D.Good c M.db := by
    intro i c p l hi ho
    obtain ⟨hinv, hfresh⟩ := hM.atomic.good hD
    refine ⟨hinv, hfresh c fun e he => ?_⟩
    obtain ⟨s, hs, _⟩ := hM.entry e he
    refine hM.apart _ _ _ _ _ _ (fun h => not_logged hM hi ho ?_) hs hi
    exact h ▸ List.mem_map_of_mem he
  cases hs with
  | start c hc => exact serial_start hM hc
  | stmt i c s k l hi hfree =>
      have hgo : Solo M.db (prog c, .init) (k (s.step M.db l).1, (s.step M.db l).2) :=
        (hM.solo _ _ _ _ hi rfl).tail (.stmt s k l)
      have hfree' : ∀ p' l', Status.running (k (s.step M.db l).1) (s.step M.db l).2 =
          .running p' l' → M.Free i l'.now.held := fun p' l' e => by
        cases e
        exact hfree
      cases ho : outcome (k (s.step M.db l).1, (s.step M.db l).2) with
      | none =>
          rw [settle_none ho, List.append_nil]
          have hset : ∀ r, (Status.running (k (s.step M.db l).1) (s.step M.db l).2).Settled r ↔
              (Status.running (.stmt s k) l).Settled r := fun r => by
            rw [settled_running, settled_running, ho]
            exact Iff.rfl
          have h := serial_keep hM hi hset (fun p' l' e _ => by cases e; exact hgo) hfree'
            (Or.inl rfl)
          rwa [List.append_nil] at h
      | some r =>
          rw [settle_some ho]
          have hset : ∀ r', (Status.running (k (s.step M.db l).1) (s.step M.db l).2).Settled r' ↔
              r = r' := fun r' => by rw [settled_running, ho, Option.some.injEq]
          have h := serial_effect hM hi rfl (run_of_solo_outcome hgo ho) hset
            (fun j c' p' l' _ hj ho' => hM.solo _ _ _ _ hj ho') hfree' (Or.inl rfl)
          rwa [List.append_nil] at h
  | commit i c r l hi hw =>
      have ho : outcome (Tx.commit r, l) = none := by simp [outcome, hw]
      have hgo := hM.solo _ _ _ _ hi ho
      have hI := hgood _ _ _ _ hi ho
      have hallowed := solo_guarantee hI _ _ _ _ (hD.keeps c) trivial (fun _ e => by cases e)
        (Contract.Allowed.refl hI.inv) (fun f hf => absurd hf List.not_mem_nil) hgo ho
      refine serial_effect hM hi ho (run_of_solo_commit hgo) (fun _ => settled_replied) ?_
        (fun _ _ e => by cases e) (Or.inr rfl)
      intro j c' p' l' hne hj ho'
      -- the other call runs to the same point on the rows this one leaves
      have hcomp : D.compat c c' := hM.apart _ _ _ _ _ _ hne.symm hi hj
      have hI' := hgood _ _ _ _ hj ho'
      have hrely : D.rely l'.now.held M.db (l.now.eff M.db) :=
        hallowed.rely _ fun x hx => hM.held _ _ _ _ hj i c _ l hne.symm hi x hx
      rcases solo_stable _ _ _ _ (hD.keeps c') (fun _ _ _ _ _ _ => trivial)
        (fun _ h _ => h.inv) (fun _ e => by cases e) hI'
        ⟨hallowed.inv, hallowed.fresh c' hcomp hI'.fresh⟩ trivial (hM.solo _ _ _ _ hj ho')
        ho' hrely with ⟨_, _, h⟩ | ⟨_, e, _⟩
      · exact h
      · cases e
  | finish i c r p l hi ho =>
      refine serial_keep hM hi (fun r' => ?_) (fun _ _ e => by cases e) (fun _ _ e => by cases e)
        (Or.inr ⟨rfl, r, settled_running.mpr ho⟩)
      rw [settled_replied, settled_running, ho, Option.some.injEq]
  | fail i c p l hi ho =>
      have hset : ∀ r, (Status.failed : Status S ρ).Settled r ↔
          (Status.running p l).Settled r := fun r => by
        rw [settled_running, ho]
        exact ⟨fun h => absurd h not_settled_failed, fun e => by cases e⟩
      have h := serial_keep hM hi hset (fun _ _ e => by cases e) (fun _ _ e => by cases e)
        (Or.inl rfl)
      rwa [List.append_nil] at h

/-- **Every reachable machine is serial.** -/
theorem serial_reachable {db₀ : Db S} {M : Machine S C ρ} (hD : Lawful D prog db₀)
    (h : Reachable prog D.compat db₀ M) : Serial prog D.compat db₀ M := by
  induction h with
  | init =>
      have hno : ∀ i c st, ¬(Machine.init db₀ : Machine S C ρ).At i c st := fun i c st h => by
        cases h
      exact ⟨.nil, fun _ _ _ _ _ _ _ h => absurd h (hno _ _ _),
        fun _ h => absurd h List.not_mem_nil, List.nodup_nil,
        fun _ _ _ _ h => absurd h (hno _ _ _), fun _ _ _ _ h => absurd h (hno _ _ _),
        fun _ _ _ _ h => absurd h (hno _ _ _), fun _ h => absurd h List.not_mem_nil,
        fun _ h => absurd h List.not_mem_nil,
        fun _ _ h => absurd (h.subset List.mem_cons_self) List.not_mem_nil⟩
  | step _ hs ih => exact serial_step hD ih hs

end Sql
