/-
  File:      Eri/Sql/Waits.lean
  Subject:   Waiting for locks in an order.

  A statement that takes a lock another transaction holds waits. Transactions that all wait for
  each other wait for ever. They cannot when the locks have ranks and every statement asks for
  a lock of a higher rank than those its transaction holds; two kinds of locks need no rank:
  those of rows that a transaction has inserted itself, which nobody else can see, and those of
  rows that are only ever locked under another lock.

  * `Machine.Waits`, `Machine.Deadlock`;
  * `Order`, `Order.May` -- ranks, inserted rows, guarded rows, and what a transaction may ask
    for with the locks it holds;
  * `Tx.Orderly`, one rule for each step of a program;
  * **`no_deadlock`**, `someone_moves`, `one_lock`.
-/
import Eri.Sql.Visits

namespace Sql

variable {S : Schema} {C ρ ρ' α : Type} {D : Contract S C}

/-! ## 1. Waiting -/

/-- The next statement of thread `i` takes the lock `k`, which thread `j` holds. -/
def Machine.Waits (M : Machine S C ρ) (i : Nat) (k : Lock S) (j : Nat) : Prop :=
  (∃ (c : C) (β : Type) (s : Stmt S β) (next : β → Tx S ρ) (l : Local S),
    M.At i c (.running (.stmt s next) l) ∧ k ∈ (s.step M.db l).2.now.held) ∧
  j ≠ i ∧ ∃ c p l, M.At j c (.running p l) ∧ k ∈ l.now.held

/-- Each transaction of a nonempty set waits for another one of it. -/
def Machine.Deadlock (M : Machine S C ρ) (W : Set Nat) : Prop :=
  W.Nonempty ∧ ∀ i ∈ W, ∃ k, ∃ j ∈ W, M.Waits i k j

/-! ## 2. Order -/

/-- The lock is the one of a committed row. -/
def Committed (db : Db S) (k : Lock S) : Prop := ∃ t, ∃ r ∈ db.rows t, k = .row t (S.key r)

/-- **An order of locks**: their ranks, the locks of rows a call inserts itself (`owned`), and
    the lock that is always taken before another one (`guards`). -/
structure Order (D : Contract S C) where
  rank : Lock S → Nat
  bound : Nat
  rank_le : ∀ k, rank k ≤ bound
  owned : C → Lock S → Prop
  guards : Db S → Lock S → Lock S → Prop
  apart : ∀ {c c' k}, D.compat c c' → owned c k → ¬owned c' k
  fresh : ∀ {c db k}, D.Good c db → owned c k → ¬Committed db k

variable (O : Order D)

/-- The lock is one of a committed row, of a row of the call's own, or of none of these. -/
def Order.Known (c : C) (db : Db S) (k : Lock S) : Prop :=
  O.owned c k ∨ Committed db k ∨ ∀ c', ¬O.owned c' k

/-- The locks have ranks below `n`, those of the call's own rows apart. -/
def Order.Below (c : C) (held : List (Lock S)) (n : Nat) : Prop :=
  ∀ h ∈ held, O.owned c h ∨ O.rank h < n

/-- **What a call may ask for** with the locks it holds. -/
structure Order.May (c : C) (db : Db S) (held : List (Lock S)) (k : Lock S) : Prop where
  known : O.Known c db k
  guarded : ∀ g, O.guards db g k → g ∈ held
  ordered : O.owned c k ∨ (∃ g, O.guards db g k) ∨ O.Below c held (O.rank k)

/-- A statement that asks for one lock at most, and only for one it may ask for. -/
structure Order.Asks (c : C) (db : Db S) {β : Type} (s : Stmt S β) (l : Local S) : Prop where
  may : ∀ k ∈ (s.step db l).2.now.held, k ∈ l.now.held ∨ O.May c db l.now.held k
  one : ∀ k ∈ (s.step db l).2.now.held, ∀ k' ∈ (s.step db l).2.now.held,
    k ∉ l.now.held → k' ∉ l.now.held → k = k'

/-- All statements of the rest of a program do. -/
def Tx.Orderly (c : C) (db : Db S) (p : Tx S ρ) (l : Local S) : Prop :=
  p.Visits (fun s l => O.Asks c db s l) (fun _ _ => True) db l

section Rules

variable {O} {c : C} {db : Db S} {l : Local S} {t : S.Table}

theorem below_nil {n : Nat} : O.Below c [] n := fun _ hk => absurd hk List.not_mem_nil

theorem below_cons {k : Lock S} {held : List (Lock S)} {n : Nat} (hk : O.owned c k ∨ O.rank k < n)
    (h : O.Below c held n) : O.Below c (k :: held) n := List.forall_mem_cons.mpr ⟨hk, h⟩

theorem below_mono {held : List (Lock S)} {m n : Nat} (hmn : m ≤ n) (h : O.Below c held m) :
    O.Below c held n := fun k hk => (h k hk).imp_right fun hlt => Nat.lt_of_lt_of_le hlt hmn

theorem asks_same {β : Type} {s : Stmt S β} (h : (s.step db l).2.now.held ⊆ l.now.held) :
    O.Asks c db s l :=
  ⟨fun _ hk => Or.inl (h hk), fun _ hk _ _ hno => absurd (h hk) hno⟩

/-- A statement that adds one lock. -/
theorem asks_cons {β : Type} {s : Stmt S β} {k : Lock S}
    (hs : (s.step db l).2.now.held = k :: l.now.held)
    (h : k ∈ l.now.held ∨ O.May c db l.now.held k) : O.Asks c db s l := by
  have hcases : ∀ x ∈ (s.step db l).2.now.held, x = k ∨ x ∈ l.now.held := fun x hx => by
    rw [hs] at hx
    exact List.mem_cons.mp hx
  refine ⟨fun x hx => ?_, fun x hx y hy hxno hyno => ?_⟩
  · rcases hcases x hx with rfl | hx
    · exact h
    · exact Or.inl hx
  · rw [(hcases x hx).resolve_right hxno, (hcases y hy).resolve_right hyno]

theorem orderly_map (f : ρ → ρ') (p : Tx S ρ) :
    (p.map f).Orderly O c db l ↔ p.Orderly O c db l := visits_map f p l

theorem orderly_commit (r : ρ) (k : α → Tx S ρ) : (commit r k).Orderly O c db l := trivial

theorem orderly_abort (r : ρ) (k : α → Tx S ρ) : (abort r k).Orderly O c db l := trivial

theorem orderly_ensure {q : Prop} [Decidable q] {r : ρ} {k : Unit → Tx S ρ}
    (h : q → (k ()).Orderly O c db l) : (ensure q r k).Orderly O c db l :=
  visits_ensure trivial h

theorem orderly_checked {ε : Type} {x : Except ε α} {r : ε → ρ} {k : α → Tx S ρ}
    (h : ∀ a, (k a).Orderly O c db l) : (checked x r k).Orderly O c db l :=
  visits_checked (fun _ _ => trivial) fun a _ => h a

theorem orderly_select {q : Db S → α} {k : α → Tx S ρ}
    (h : (k (q (l.now.eff db))).Orderly O c db l) : (select q k).Orderly O c db l :=
  visits_select (asks_same (List.Subset.refl _)) h

theorem orderly_selectOr {q : Db S → Option α} {r : ρ} {k : α → Tx S ρ}
    (h : ∀ a, q (l.now.eff db) = some a → (k a).Orderly O c db l) :
    (selectOr q r k).Orderly O c db l :=
  visits_selectOr (asks_same (List.Subset.refl _)) trivial h

/-- `SELECT … FOR UPDATE`. -/
theorem orderly_lockOr {p : S.Row t → Bool} {r : ρ} {k : S.Row t → Tx S ρ}
    (h : ∀ row ∈ (l.now.eff db).rows t, p row = true →
      (.row t (S.key row) ∈ l.now.held ∨ O.May c db l.now.held (.row t (S.key row))) ∧
        (k row).Orderly O c db (l.lock [.row t (S.key row)])) :
    (lockOr t p r k).Orderly O c db l := by
  refine visits_lockOr ?_ trivial fun row hrow =>
    (h row (List.mem_of_find?_eq_some hrow) (List.find?_some hrow)).2
  cases hfind : ((l.now.eff db).rows t).find? p with
  | none => exact asks_same (by simp only [Stmt.step, hfind]; exact List.Subset.refl _)
  | some row =>
      refine asks_cons (k := .row t (S.key row)) (by simp only [Stmt.step, hfind]; rfl) ?_
      exact (h row (List.mem_of_find?_eq_some hfind) (List.find?_some hfind)).1

/-- An `UPDATE` of at most one row. -/
theorem orderly_update {p : S.Row t → Bool} {set : S.Row t → S.Row t}
    {k : List (S.Row t) → Tx S ρ}
    (hmay : ∀ row ∈ (l.now.eff db).rows t, p row = true →
      .row t (S.key row) ∈ l.now.held ∨ O.May c db l.now.held (.row t (S.key row)))
    (hone : ∀ row ∈ (l.now.eff db).rows t, ∀ row' ∈ (l.now.eff db).rows t, p row = true →
      p row' = true → S.key row = S.key row')
    (h : (k ((l.hit db t p).map set)).Orderly O c db
      (l.updated t p set ((l.hit db t p).map S.key))) :
    (update t p set k).Orderly O c db l := by
  have hheld : ((Stmt.update t p set).step db l).2.now.held =
      ((l.hit db t p).map S.key).map (Lock.row t) ++ l.now.held := by
    rw [step_update]
    exact held_updated l t p set _
  have hhit : ∀ x ∈ ((Stmt.update t p set).step db l).2.now.held, x ∈ l.now.held ∨
      ∃ row ∈ (l.now.eff db).rows t, p row = true ∧ x = .row t (S.key row) := by
    intro x hx
    rw [hheld] at hx
    rcases List.mem_append.mp hx with hx | hx
    · obtain ⟨key, hkey, rfl⟩ := List.mem_map.mp hx
      obtain ⟨row, hrow, rfl⟩ := List.mem_map.mp hkey
      obtain ⟨hmem, hp⟩ := List.mem_filter.mp hrow
      exact Or.inr ⟨row, hmem, hp, rfl⟩
    · exact Or.inl hx
  refine visits_update ⟨fun x hx => ?_, fun x hx y hy hxno hyno => ?_⟩ h
  · rcases hhit x hx with hx | ⟨row, hrow, hp, rfl⟩
    · exact Or.inl hx
    · exact hmay row hrow hp
  · obtain ⟨row, hrow, hp, rfl⟩ := (hhit x hx).resolve_left hxno
    obtain ⟨row', hrow', hp', rfl⟩ := (hhit y hy).resolve_left hyno
    rw [hone row hrow row' hrow' hp hp']

/-- An `UPDATE` of rows that are locked already. -/
theorem orderly_update_held {p : S.Row t → Bool} {set : S.Row t → S.Row t}
    {k : List (S.Row t) → Tx S ρ}
    (hheld : ∀ row ∈ (l.now.eff db).rows t, p row = true → .row t (S.key row) ∈ l.now.held)
    (h : (k ((l.hit db t p).map set)).Orderly O c db
      (l.updated t p set ((l.hit db t p).map S.key))) :
    (update t p set k).Orderly O c db l := by
  have hsub : ((Stmt.update t p set).step db l).2.now.held ⊆ l.now.held := by
    intro x hx
    rw [step_update] at hx
    rw [held_updated] at hx
    rcases List.mem_append.mp hx with hx | hx
    · obtain ⟨key, hkey, rfl⟩ := List.mem_map.mp hx
      obtain ⟨row, hrow, rfl⟩ := List.mem_map.mp hkey
      obtain ⟨hmem, hp⟩ := List.mem_filter.mp hrow
      exact hheld row hmem hp
    · exact hx
  exact visits_update (asks_same hsub) h

theorem orderly_insert {row : Db S → S.Row t} {k : S.Row t → Tx S ρ}
    (hmay : O.May c db l.now.held (.row t (S.key (row (l.now.eff db)))))
    (h : (k (row (l.now.eff db))).Orderly O c db
      ((l.lock [.row t (S.key (row (l.now.eff db)))]).write
        fun d => d.insert t (row (l.now.eff db)))) :
    (insert t row k).Orderly O c db l := visits_insert (asks_cons rfl (Or.inr hmay)) h

theorem orderly_upsert {row : S.Row t} {set : S.Row t → S.Row t} {k : Unit → Tx S ρ}
    (hmay : O.May c db l.now.held (.row t (S.key row)))
    (h : (k ()).Orderly O c db
      ((l.lock [.row t (S.key row)]).write fun d => d.upsert t row set)) :
    (upsert t row set k).Orderly O c db l := visits_upsert (asks_cons rfl (Or.inr hmay)) h

theorem orderly_advisoryLock {a : S.Advisory} {k : Unit → Tx S ρ}
    (hmay : O.May c db l.now.held (.advisory a))
    (h : (k ()).Orderly O c db (l.lock [.advisory a])) :
    (advisoryLock a k).Orderly O c db l :=
  visits_advisoryLock (asks_cons rfl (Or.inr hmay)) h

theorem orderly_savepoint {k : Unit → Tx S ρ}
    (h : (k ()).Orderly O c db { l with saved := l.now :: l.saved }) :
    (savepoint k).Orderly O c db l :=
  visits_savepoint (asks_same (List.Subset.refl _)) h

theorem orderly_releaseSavepoint {k : Unit → Tx S ρ}
    (h : (k ()).Orderly O c db { l with saved := l.saved.tail }) :
    (releaseSavepoint k).Orderly O c db l :=
  visits_releaseSavepoint (asks_same (List.Subset.refl _)) h

theorem orderly_rollbackToSavepoint {k : Unit → Tx S ρ}
    (hsaved : (l.saved.headD l.now).held ⊆ l.now.held)
    (h : (k ()).Orderly O c db ⟨l.saved.headD l.now, l.saved.tail⟩) :
    (rollbackToSavepoint k).Orderly O c db l :=
  visits_rollbackToSavepoint (asks_same hsaved) h

theorem orderly_ite {q : Prop} [Decidable q] {m m' : Op S ρ α} {k : α → Tx S ρ}
    (h : q → (m k).Orderly O c db l) (h' : ¬q → (m' k).Orderly O c db l) :
    ((if q then m else m') k).Orderly O c db l := visits_ite h h'

/-- Row after row, each of them a row the call may lock whatever else it holds by then. -/
theorem orderly_updateKeys {p : S.Row t → Bool} {set : S.Row t → S.Row t}
    (hset : ∀ r, S.key (set r) = S.key r) (hp : ∀ r, p (set r) = p r) {k : Unit → Tx S ρ}
    (h : ∀ l', (k ()).Orderly O c db l') :
    ∀ (ks : List S.Key) (l : Local S),
      (∀ held, l.now.held ⊆ held → ∀ row ∈ (l.now.eff db).rows t, p row = true →
        O.May c db held (.row t (S.key row))) →
      (updateKeys t p set ks k).Orderly O c db l := by
  intro ks
  induction ks with
  | nil => exact fun l _ => h l
  | cons key ks ih =>
      intro l hmay
      refine orderly_update (fun row hrow hq => Or.inr ?_) (fun row _ row' _ hq hq' => ?_) ?_
      · exact hmay _ (List.Subset.refl _) row hrow (Bool.and_eq_true_iff.mp hq).1
      · rw [of_decide_eq_true (Bool.and_eq_true_iff.mp hq).2,
          of_decide_eq_true (Bool.and_eq_true_iff.mp hq').2]
      · refine ih _ fun held hheld row hrow hrowp => ?_
        have hsub : l.now.held ⊆ held := by
          rw [held_updated] at hheld
          exact fun x hx => hheld (List.mem_append_right _ hx)
        -- a row written before is a row of the table with the same key
        obtain ⟨old, hold, holdp, hkey⟩ : ∃ old ∈ (l.now.eff db).rows t, p old = true ∧
            S.key row = S.key old := by
          unfold Local.updated at hrow
          split at hrow
          · exact ⟨row, hrow, hrowp, rfl⟩
          · rw [Local.write_eff, Db.update_rows_self] at hrow
            obtain ⟨old, hold, rfl⟩ := List.mem_map.mp hrow
            split at hrowp
            · rename_i hhit
              rw [if_pos hhit]
              exact ⟨old, hold, (hp old).symm.trans hrowp, hset old⟩
            · rename_i hmiss
              rw [if_neg hmiss]
              exact ⟨old, hold, hrowp, rfl⟩
        rw [hkey]
        exact hmay held hsub old hold holdp

/-- **An `UPDATE` of many rows**, under the lock that guards them. -/
theorem orderly_updateEach {p : S.Row t → Bool} {set : S.Row t → S.Row t}
    {scan : List S.Key → List S.Key} (hset : ∀ r, S.key (set r) = S.key r)
    (hp : ∀ r, p (set r) = p r)
    (hmay : ∀ held, l.now.held ⊆ held → ∀ row ∈ (l.now.eff db).rows t, p row = true →
      O.May c db held (.row t (S.key row)))
    {k : Unit → Tx S ρ} (h : ∀ l', (k ()).Orderly O c db l') :
    (updateEach t p set scan k).Orderly O c db l :=
  orderly_select (orderly_updateKeys hset hp h _ l hmay)

end Rules

/-! ## 3. Deadlocks -/

section Deadlock

variable {O} {c : C} {db : Db S}

/-- What a call holds is known, and it holds what guards it. -/
def Order.Holds (O : Order D) (c : C) (db : Db S) (held : List (Lock S)) : Prop :=
  ∀ k ∈ held, O.Known c db k ∧ ∀ g, O.guards db g k → g ∈ held

def Order.HoldsAll (O : Order D) (c : C) (db : Db S) (l : Local S) : Prop :=
  O.Holds c db l.now.held ∧ ∀ f ∈ l.saved, O.Holds c db f.held

/-- More locks the call may ask for. -/
theorem holds_more {held held' : List (Lock S)} (h : O.Holds c db held) (hsub : held ⊆ held')
    (hmay : ∀ k ∈ held', k ∈ held ∨ O.May c db held k) : O.Holds c db held' := by
  intro k hk
  rcases hmay k hk with hold | hnew
  · exact ⟨(h k hold).1, fun g hg => hsub ((h k hold).2 g hg)⟩
  · exact ⟨hnew.known, fun g hg => hsub (hnew.guarded g hg)⟩

theorem step_saved {β : Type} (s : Stmt S β) (l : Local S) :
    ∀ f ∈ (s.step db l).2.saved, f = l.now ∨ f ∈ l.saved := by
  intro f hf
  cases s with
  | selectForUpdate t p =>
      simp only [Stmt.step] at hf
      split at hf <;> exact Or.inr hf
  | update t p set =>
      simp only [Stmt.step] at hf
      split at hf <;> exact Or.inr hf
  | savepoint => exact List.mem_cons.mp hf
  | releaseSavepoint => exact Or.inr (List.mem_of_mem_tail hf)
  | rollbackToSavepoint => exact Or.inr (List.mem_of_mem_tail hf)
  | _ => exact Or.inr hf

theorem holdsAll_step {β : Type} {s : Stmt S β} {l : Local S} (h : O.HoldsAll c db l)
    (hs : O.Asks c db s l) : O.HoldsAll c db (s.step db l).2 := by
  refine ⟨?_, fun f hf => ?_⟩
  · by_cases hrollback : s.isRollback = true
    · cases s with
      | rollbackToSavepoint =>
          show O.Holds c db (l.saved.headD l.now).held
          cases hsaved : l.saved with
          | nil => exact h.1
          | cons f fs => exact h.2 f (by rw [hsaved]; exact List.mem_cons_self)
      | _ => cases hrollback
    · exact holds_more h.1 (s.held_subset (Bool.eq_false_iff.mpr hrollback) db l) hs.may
  · rcases step_saved s l f hf with rfl | hf
    · exact h.1
    · exact h.2 f hf

/-- **Wherever an orderly call stands** it holds its locks in order, and goes on orderly. -/
theorem orderly_solo {a b : Tx S ρ × Local S} (ha : a.1.Orderly O c db a.2)
    (h : O.HoldsAll c db a.2) (hs : Solo db a b) :
    b.1.Orderly O c db b.2 ∧ O.HoldsAll c db b.2 := by
  induction hs with
  | refl => exact ⟨ha, h⟩
  | tail _ hstep ih =>
      cases hstep with
      | stmt s k l =>
          obtain ⟨⟨hasks, hrest⟩, hholds⟩ := ih
          exact ⟨hrest, holdsAll_step hholds hasks⟩

variable {prog : C → Tx S ρ} {db₀ : Db S} {M : Machine S C ρ}

/-- Every program of the calls is orderly. -/
def Order.Governs (O : Order D) (prog : C → Tx S ρ) : Prop :=
  ∀ c db, D.Good c db → (prog c).Orderly O c db .init

/-- A call under way whose outcome is open finds good rows and stands in order. -/
theorem standing {i : Nat} {c : C} {p : Tx S ρ} {l : Local S} (hD : Lawful D prog db₀)
    (hO : O.Governs prog) (hM : Serial prog D.compat db₀ M) (hi : M.At i c (.running p l))
    (ho : outcome (p, l) = none) :
    D.Good c M.db ∧ p.Orderly O c M.db l ∧ O.HoldsAll c M.db l := by
  obtain ⟨hinv, hfresh⟩ := hM.atomic.good hD
  have hgood : D.Good c M.db := by
    refine ⟨hinv, hfresh c fun e he => ?_⟩
    obtain ⟨st, hat, _⟩ := hM.entry e he
    refine hM.apart _ _ _ _ _ _ (fun heq => ?_) hat hi
    exact not_logged hM hi ho (List.mem_map.mpr ⟨e, he, heq⟩)
  have hinit : O.HoldsAll c M.db .init :=
    ⟨fun k hk => absurd hk List.not_mem_nil, fun f hf => absurd hf List.not_mem_nil⟩
  exact ⟨hgood, orderly_solo (hO c M.db hgood) hinit (hM.solo i c p l hi ho)⟩

/-- **A wait between two open calls**: the lock is no row of either's own, and its rank is
    above the ranks of what the waiting call holds. -/
theorem waits_order {i j : Nat} {c c' : C} {β β' : Type} {s : Stmt S β} {s' : Stmt S β'}
    {next : β → Tx S ρ} {next' : β' → Tx S ρ} {l l' : Local S} {k : Lock S}
    (hD : Lawful D prog db₀) (hO : O.Governs prog) (hM : Serial prog D.compat db₀ M)
    (hi : M.At i c (.running (.stmt s next) l)) (hj : M.At j c' (.running (.stmt s' next') l'))
    (hne : j ≠ i) (hk : k ∈ (s.step M.db l).2.now.held) (hheld : k ∈ l'.now.held) :
    ¬O.owned c' k ∧ ∀ h ∈ l.now.held, O.owned c h ∨ O.rank h < O.rank k := by
  have hcompat : D.compat c c' := hM.apart _ _ _ _ _ _ hne.symm hi hj
  have hexcl : ∀ g, g ∈ l.now.held → g ∉ l'.now.held := hM.held i c _ l hi j c' _ l' hne hj
  obtain ⟨hgood, ⟨hasks, _⟩, _⟩ := standing hD hO hM hi rfl
  obtain ⟨hgood', _, hholds⟩ := standing hD hO hM hj rfl
  have hmay : O.May c M.db l.now.held k :=
    (hasks.may k hk).resolve_left fun hown => hexcl k hown hheld
  obtain ⟨hknown, hguards⟩ := hholds.1 k hheld
  have howned : ¬O.owned c k := by
    intro hown
    rcases hknown with htheirs | hcommitted | hnone
    · exact O.apart hcompat hown htheirs
    · exact O.fresh hgood hown hcommitted
    · exact hnone c hown
  have howned' : ¬O.owned c' k := by
    intro hown
    rcases hmay.known with hmine | hcommitted | hnone
    · exact O.apart hcompat hmine hown
    · exact O.fresh hgood' hown hcommitted
    · exact hnone c' hown
  refine ⟨howned', ?_⟩
  rcases hmay.ordered with hown | ⟨g, hg⟩ | hranks
  · exact absurd hown howned
  · -- both hold what guards the lock
    exact absurd (hguards g hg) (hexcl g (hmay.guarded g hg))
  · exact hranks

/-- **Orderly calls never wait for each other in a circle.** -/
theorem no_deadlock (hD : Lawful D prog db₀) (hO : O.Governs prog)
    (h : Reachable prog D.compat db₀ M) (W : Set Nat) : ¬M.Deadlock W := by
  have hM : Serial prog D.compat db₀ M := serial_reachable hD h
  rintro ⟨⟨i₀, hi₀⟩, hwaits⟩
  have hrise : ∀ i ∈ W, ∀ k, ∀ j ∈ W, M.Waits i k j →
      ∃ k', ∃ j' ∈ W, M.Waits j k' j' ∧ O.rank k < O.rank k' := by
    rintro i hi k j hj ⟨⟨c, β, s, next, l, hat, hk⟩, hne, c', p, l', hatj, hheld⟩
    obtain ⟨k', j', hj', hwaits'⟩ := hwaits j hj
    obtain ⟨⟨c₂, β₂, s₂, next₂, l₂, hatj₂, hk'⟩, hne', c₃, p₃, l₃, hatj', hheld'⟩ := hwaits'
    obtain ⟨k₃, _, _, ⟨c₄, β₄, s₄, next₄, l₄, hatj₄, _⟩, _⟩ := hwaits j' hj'
    -- each thread stands at one place
    unfold Machine.At at hatj hatj₂ hatj' hatj₄
    rw [hatj₂] at hatj
    cases hatj
    rw [hatj₄] at hatj'
    cases hatj'
    obtain ⟨hnot, _⟩ := waits_order hD hO hM hat hatj₂ hne hk hheld
    obtain ⟨_, hranks⟩ := waits_order hD hO hM hatj₂ hatj₄ hne' hk' hheld'
    exact ⟨k', j', hj', ⟨⟨_, _, _, _, _, hatj₂, hk'⟩, hne', _, _, _, hatj₄, hheld'⟩,
      (hranks k hheld).resolve_left hnot⟩
  have hchain : ∀ n, ∃ i ∈ W, ∃ k, ∃ j ∈ W, M.Waits i k j ∧ n ≤ O.rank k := by
    intro n
    induction n with
    | zero =>
        obtain ⟨k, j, hj, hw⟩ := hwaits i₀ hi₀
        exact ⟨i₀, hi₀, k, j, hj, hw, Nat.zero_le _⟩
    | succ n ih =>
        obtain ⟨i, hi, k, j, hj, hw, hle⟩ := ih
        obtain ⟨k', j', hj', hw', hlt⟩ := hrise i hi k j hj hw
        exact ⟨j, hj, k', j', hj', hw', Nat.lt_of_le_of_lt hle hlt⟩
  obtain ⟨_, _, k, _, _, _, hle⟩ := hchain (O.bound + 1)
  exact absurd (O.rank_le k) (Nat.not_le.mpr hle)

/-- **While a call runs, some call that runs waits for nobody.** -/
theorem someone_moves (hD : Lawful D prog db₀) (hO : O.Governs prog)
    (h : Reachable prog D.compat db₀ M) {i : Nat} {c : C} {p : Tx S ρ} {l : Local S}
    (hi : M.At i c (.running p l)) :
    ∃ j c' p' l', M.At j c' (.running p' l') ∧ ∀ k j', ¬M.Waits j k j' := by
  by_contra hall
  refine no_deadlock hD hO h {j | ∃ c p l, M.At j c (.running p l)} ⟨⟨i, c, p, l, hi⟩, ?_⟩
  rintro j ⟨c', p', l', hj⟩
  by_contra hnone
  refine hall ⟨j, c', p', l', hj, fun k j' hw => hnone ⟨k, j', ?_, hw⟩⟩
  obtain ⟨_, _, cj, pj, lj, hat, _⟩ := hw
  exact ⟨cj, pj, lj, hat⟩

/-- A call that waits for nobody can execute its statement. -/
theorem free_of_moves {i : Nat} {c : C} {β : Type} {s : Stmt S β} {next : β → Tx S ρ}
    {l : Local S} (hi : M.At i c (.running (.stmt s next) l)) (h : ∀ k j, ¬M.Waits i k j) :
    M.Free i (s.step M.db l).2.now.held := fun j cj pj lj hne hj k hk hheld =>
  h k j ⟨⟨c, _, s, next, l, hi, hk⟩, hne, cj, pj, lj, hj, hheld⟩

/-- A statement waits for one lock at most. -/
theorem one_lock (hD : Lawful D prog db₀) (hO : O.Governs prog)
    (h : Reachable prog D.compat db₀ M) {i j j' : Nat} {k k' : Lock S} (hw : M.Waits i k j)
    (hw' : M.Waits i k' j') : k = k' := by
  have hM : Serial prog D.compat db₀ M := serial_reachable hD h
  obtain ⟨⟨c, β, s, next, l, hat, hk⟩, hne, _, _, _, hj, hheld⟩ := hw
  obtain ⟨⟨c₂, β₂, s₂, next₂, l₂, hat₂, hk'⟩, hne', _, _, _, hj', hheld'⟩ := hw'
  unfold Machine.At at hat₂
  rw [hat] at hat₂
  cases hat₂
  obtain ⟨_, ⟨hasks, _⟩, _⟩ := standing hD hO hM hat rfl
  exact hasks.one k hk k' hk' (fun hown => hM.held i c _ l hat j _ _ _ hne hj _ hown hheld)
    fun hown => hM.held i c _ l hat j' _ _ _ hne' hj' _ hown hheld'

end Deadlock

end Sql
