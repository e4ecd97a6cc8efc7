/-
  File:      Eri/Sql/Program.lean
  Subject:   Store operations as programs of SQL statements, and what they do when run alone.

  * `Stmt` -- the statements: a plain `SELECT`, `SELECT … FOR UPDATE`, `UPDATE`, `INSERT`,
    `INSERT … ON CONFLICT DO UPDATE`, the transaction-scoped advisory lock and the savepoint
    statements;
  * `Tx S ρ` -- an operation: statements one after the other, each chosen from the answers so
    far, ended by `COMMIT` (with the value returned to the caller) or by a return that drops
    the open transaction, which is a rollback;
  * `Op S ρ` -- the monad the operations are written in: `commit` and `abort` leave the whole
    operation, as `return` does in the middle of a function;
  * `Tx.run` -- the operation alone on a database: the value returned and the rows left;
  * `Tx.Post` -- postconditions of `run`, with one rule for each step of a program;
  * `Tx.Within`, `run_within` -- the tables an operation does not write stay as they are;
  * `Tx.Agree` -- two operations that return and leave the same, with one rule for each step
    they both take and one for a check that only one of them makes.
-/
import Eri.Sql.Table

namespace Sql

variable {S : Schema}

/-! ## 1. Statements and programs -/

/-- One SQL statement and the type of its answer: the selected value, the first row that was
    locked, the rows an `UPDATE` left (`RETURNING`, and their number), the inserted row.
    Predicates and column expressions are functions of a row, a plain `SELECT` is a function
    of the rows the transaction sees. -/
inductive Stmt (S : Schema) : Type → Type 1 where
  | select {β : Type} (q : Db S → β) : Stmt S β
  | selectForUpdate (t : S.Table) (p : S.Row t → Bool) : Stmt S (Option (S.Row t))
  | update (t : S.Table) (p : S.Row t → Bool) (set : S.Row t → S.Row t) :
      Stmt S (List (S.Row t))
  | insert (t : S.Table) (row : Db S → S.Row t) : Stmt S (S.Row t)
  | upsert (t : S.Table) (row : S.Row t) (set : S.Row t → S.Row t) : Stmt S Unit
  | advisoryLock (a : S.Advisory) : Stmt S Unit
  | savepoint : Stmt S Unit
  | releaseSavepoint : Stmt S Unit
  | rollbackToSavepoint : Stmt S Unit

/-- An operation that returns a `ρ`. -/
inductive Tx (S : Schema) (ρ : Type) : Type 1 where
  | commit (r : ρ)
  | abort (r : ρ)
  | stmt {β : Type} (s : Stmt S β) (next : β → Tx S ρ)

/-- The monad of operations that return a `ρ`: an `α` is handed to the rest of the
    operation, unless the operation ends first. -/
def Op (S : Schema) (ρ α : Type) : Type 1 := (α → Tx S ρ) → Tx S ρ

instance (ρ : Type) : Monad (Op S ρ) where
  pure a := fun k => k a
  bind m f := fun k => m fun a => f a k

section Steps

variable {ρ α : Type}

/-- `tx.commit()` and return. -/
def commit (r : ρ) : Op S ρ α := fun _ => .commit r

/-- Return without a commit: an open transaction is dropped. -/
def abort (r : ρ) : Op S ρ α := fun _ => .abort r

/-- Leave with `r` unless the condition holds. -/
def ensure (c : Prop) [Decidable c] (r : ρ) : Op S ρ Unit :=
  fun k => if c then k () else .abort r

/-- The value of a local check, or the caller's error for it. -/
def checked {ε : Type} (x : Except ε α) (r : ε → ρ) : Op S ρ α :=
  fun k => match x with
    | .ok a => k a
    | .error e => .abort (r e)

/-- A plain `SELECT`. -/
def select (q : Db S → α) : Op S ρ α := fun k => .stmt (.select q) k

/-- A plain `SELECT` of at most one row; leave with `r` when there is none. -/
def selectOr (q : Db S → Option α) (r : ρ) : Op S ρ α :=
  fun k => .stmt (.select q) fun o => match o with
    | some a => k a
    | none => .abort r

/-- `SELECT … FOR UPDATE` of one row; leave with `r` when there is none. -/
def lockOr (t : S.Table) (p : S.Row t → Bool) (r : ρ) : Op S ρ (S.Row t) :=
  fun k => .stmt (.selectForUpdate t p) fun o => match o with
    | some row => k row
    | none => .abort r

/-- `UPDATE`, with the rows it left. -/
def update (t : S.Table) (p : S.Row t → Bool) (set : S.Row t → S.Row t) :
    Op S ρ (List (S.Row t)) := fun k => .stmt (.update t p set) k

/-- `INSERT … SELECT`, with the row it inserted. -/
def insert (t : S.Table) (row : Db S → S.Row t) : Op S ρ (S.Row t) :=
  fun k => .stmt (.insert t row) k

/-- `INSERT … ON CONFLICT (primary key) DO UPDATE`. -/
def upsert (t : S.Table) (row : S.Row t) (set : S.Row t → S.Row t) : Op S ρ Unit :=
  fun k => .stmt (.upsert t row set) k

/-- `pg_advisory_xact_lock`. -/
def advisoryLock (a : S.Advisory) : Op S ρ Unit := fun k => .stmt (.advisoryLock a) k

def savepoint : Op S ρ Unit := fun k => .stmt .savepoint k

def releaseSavepoint : Op S ρ Unit := fun k => .stmt .releaseSavepoint k

def rollbackToSavepoint : Op S ρ Unit := fun k => .stmt .rollbackToSavepoint k

/-- Update the rows with the given keys one after the other. -/
def updateKeys (t : S.Table) (p : S.Row t → Bool) (set : S.Row t → S.Row t) :
    List S.Key → Op S ρ Unit
  | [] => pure ()
  | k :: ks => do
      let _ ← update t (fun r => p r && decide (S.key r = k)) set
      updateKeys t p set ks

/-- An `UPDATE` of many rows: the statement's snapshot fixes the rows, then each of them is
    locked, checked again and written, in the order the scan meets them. -/
def updateEach (t : S.Table) (p : S.Row t → Bool) (set : S.Row t → S.Row t)
    (scan : List S.Key → List S.Key) : Op S ρ Unit := do
  let keys ← select fun db => ((db.rows t).filter p).map S.key
  updateKeys t p set (scan keys)

/-- The whole operation. -/
def Op.tx (m : Op S ρ Empty) : Tx S ρ := m Empty.elim

@[simp] theorem bind_apply {β : Type} (m : Op S ρ α) (f : α → Op S ρ β) (k : β → Tx S ρ) :
    (m >>= f) k = m fun a => f a k := rfl

@[simp] theorem pure_apply (a : α) (k : α → Tx S ρ) : (pure a : Op S ρ α) k = k a := rfl

@[simp] theorem map_apply {β : Type} (f : α → β) (m : Op S ρ α) (k : β → Tx S ρ) :
    (f <$> m) k = m fun a => k (f a) := rfl

end Steps

/-! ## 2. An operation alone -/

section Run

variable {ρ : Type}

/-- The rows a transaction works on and, for each open savepoint, the rows to go back to. -/
structure Work (S : Schema) where
  db : Db S
  saved : List (Db S)

/-- One statement on the working rows. -/
def Stmt.exec {β : Type} : Stmt S β → Work S → β × Work S
  | .select q, w => (q w.db, w)
  | .selectForUpdate t p, w => ((w.db.rows t).find? p, w)
  | .update t p set, w =>
      (((w.db.rows t).filter p).map set, { w with db := w.db.update t p set })
  | .insert t row, w => (row w.db, { w with db := w.db.insert t (row w.db) })
  | .upsert t row set, w => ((), { w with db := w.db.upsert t row set })
  | .advisoryLock _, w => ((), w)
  | .savepoint, w => ((), { w with saved := w.db :: w.saved })
  | .releaseSavepoint, w => ((), { w with saved := w.saved.tail })
  | .rollbackToSavepoint, w => ((), ⟨w.saved.headD w.db, w.saved.tail⟩)

/-- The rest of an operation: `db` holds the committed rows, `w` the transaction's. -/
def Tx.exec : Tx S ρ → Db S → Work S → ρ × Db S
  | .commit r, _, w => (r, w.db)
  | .abort r, db, _ => (r, db)
  | .stmt s next, db, w => (next (s.exec w).1).exec db (s.exec w).2

/-- **The operation alone on `db`**: what it returns and the rows it leaves. -/
def Tx.run (p : Tx S ρ) (db : Db S) : ρ × Db S := p.exec db ⟨db, []⟩

/-- The same program with its value wrapped. -/
def Tx.map {ρ' : Type} (f : ρ → ρ') : Tx S ρ → Tx S ρ'
  | .commit r => .commit (f r)
  | .abort r => .abort (f r)
  | .stmt s k => .stmt s fun b => (k b).map f

theorem exec_map {ρ' : Type} (f : ρ → ρ') (p : Tx S ρ) :
    ∀ db w, (p.map f).exec db w = (f (p.exec db w).1, (p.exec db w).2) := by
  induction p with
  | commit r => exact fun _ _ => rfl
  | abort r => exact fun _ _ => rfl
  | stmt s k ih => exact fun db w => ih _ _ _

/-- **Wrapping the value does not change what a program does.** -/
theorem run_map {ρ' : Type} (f : ρ → ρ') (p : Tx S ρ) (db : Db S) :
    (p.map f).run db = (f (p.run db).1, (p.run db).2) := exec_map f p db _

theorem run_of_map {ρ' : Type} {f : ρ → ρ'} {p : Tx S ρ} {db db' : Db S} {r : ρ'}
    (h : (p.map f).run db = (r, db')) : ∃ x, p.run db = (x, db') ∧ r = f x := by
  rw [run_map, Prod.mk.injEq] at h
  exact ⟨(p.run db).1, Prod.ext rfl h.2, h.1.symm⟩

end Run

/-! ## 3. Postconditions

One rule for each step of a program, read from left to right: the goal about an operation
becomes one goal for each place it can end, with what it has seen on the way there. -/

section Post

variable {ρ α : Type} {db : Db S} {w : Work S} {Q : ρ → Db S → Prop}

/-- What the rest of an operation returns and leaves meets `Q`. -/
def Tx.Post (p : Tx S ρ) (db : Db S) (w : Work S) (Q : ρ → Db S → Prop) : Prop :=
  Q (p.exec db w).1 (p.exec db w).2

/-- **A postcondition of the program is a fact about its run.** -/
@[elab_as_elim]
theorem Tx.run_of_post {p : Tx S ρ} {motive : ρ → Db S → Prop} {r : ρ} {db' : Db S}
    (e : p.run db = (r, db')) (h : p.Post db ⟨db, []⟩ motive) : motive r db' := by
  unfold Tx.Post at h
  unfold Tx.run at e
  rwa [e] at h

theorem post_commit (r : ρ) (k : α → Tx S ρ) : (commit r k).Post db w Q ↔ Q r w.db := Iff.rfl

theorem post_ensure (c : Prop) [Decidable c] (r : ρ) (k : Unit → Tx S ρ) :
    (ensure c r k).Post db w Q ↔ (c → (k ()).Post db w Q) ∧ (¬c → Q r db) := by
  unfold ensure
  split
  · rename_i h
    exact ⟨fun hk => ⟨fun _ => hk, fun hn => absurd h hn⟩, fun hk => hk.1 h⟩
  · rename_i h
    exact ⟨fun hr => ⟨fun hc => absurd hc h, fun _ => hr⟩, fun hr => hr.2 h⟩

theorem post_checked {ε : Type} (x : Except ε α) (r : ε → ρ) (k : α → Tx S ρ) :
    (checked x r k).Post db w Q ↔
      (∀ a, x = .ok a → (k a).Post db w Q) ∧ ∀ e, x = .error e → Q (r e) db := by
  cases x with
  | ok a => exact ⟨fun h => ⟨fun _ e => by cases e; exact h, fun _ e => by cases e⟩,
      fun h => h.1 a rfl⟩
  | error x => exact ⟨fun h => ⟨fun _ e => (by cases e), fun _ e => by cases e; exact h⟩,
      fun h => h.2 x rfl⟩

theorem post_select (q : Db S → α) (k : α → Tx S ρ) :
    (select q k).Post db w Q ↔ (k (q w.db)).Post db w Q := Iff.rfl

theorem post_selectOr (q : Db S → Option α) (r : ρ) (k : α → Tx S ρ) :
    (selectOr q r k).Post db w Q ↔
      (∀ a, q w.db = some a → (k a).Post db w Q) ∧ (q w.db = none → Q r db) := by
  unfold selectOr Tx.Post
  simp only [Tx.exec, Stmt.exec]
  cases q w.db with
  | none => exact ⟨fun h => ⟨fun _ e => (by cases e), fun _ => h⟩, fun h => h.2 rfl⟩
  | some a => exact ⟨fun h => ⟨fun _ e => by cases e; exact h, fun e => by cases e⟩,
      fun h => h.1 a rfl⟩

theorem post_lockOr (t : S.Table) (p : S.Row t → Bool) (r : ρ) (k : S.Row t → Tx S ρ) :
    (lockOr t p r k).Post db w Q ↔
      (∀ row, (w.db.rows t).find? p = some row → (k row).Post db w Q) ∧
        ((w.db.rows t).find? p = none → Q r db) := by
  unfold lockOr Tx.Post
  simp only [Tx.exec, Stmt.exec]
  cases (w.db.rows t).find? p with
  | none => exact ⟨fun h => ⟨fun _ e => (by cases e), fun _ => h⟩, fun h => h.2 rfl⟩
  | some a => exact ⟨fun h => ⟨fun _ e => by cases e; exact h, fun e => by cases e⟩,
      fun h => h.1 a rfl⟩

/-! Rules for a step whose answer is known. -/

theorem post_ensure_pos {c : Prop} [Decidable c] (h : c) {r : ρ} {k : Unit → Tx S ρ} :
    (ensure c r k).Post db w Q ↔ (k ()).Post db w Q := by
  unfold ensure
  rw [if_pos h]

theorem post_checked_ok {ε : Type} {x : Except ε α} {a : α} (h : x = .ok a) {r : ε → ρ}
    {k : α → Tx S ρ} : (checked x r k).Post db w Q ↔ (k a).Post db w Q := by
  subst h
  exact Iff.rfl

theorem post_selectOr_some {q : Db S → Option α} {a : α} (h : q w.db = some a) {r : ρ}
    {k : α → Tx S ρ} : (selectOr q r k).Post db w Q ↔ (k a).Post db w Q := by
  rw [post_selectOr, h]
  exact ⟨fun hk => hk.1 a rfl, fun hk => ⟨fun _ e => by cases e; exact hk, fun e => by cases e⟩⟩

theorem post_lockOr_some {t : S.Table} {p : S.Row t → Bool} {row : S.Row t}
    (h : (w.db.rows t).find? p = some row) {r : ρ} {k : S.Row t → Tx S ρ} :
    (lockOr t p r k).Post db w Q ↔ (k row).Post db w Q := by
  rw [post_lockOr, h]
  exact ⟨fun hk => hk.1 row rfl,
    fun hk => ⟨fun _ e => by cases e; exact hk, fun e => by cases e⟩⟩

theorem post_update (t : S.Table) (p : S.Row t → Bool) (set : S.Row t → S.Row t)
    (k : List (S.Row t) → Tx S ρ) :
    (update t p set k).Post db w Q ↔ (k (((w.db.rows t).filter p).map set)).Post db
      { w with db := w.db.update t p set } Q := Iff.rfl

theorem post_insert (t : S.Table) (row : Db S → S.Row t) (k : S.Row t → Tx S ρ) :
    (insert t row k).Post db w Q ↔ (k (row w.db)).Post db
      { w with db := w.db.insert t (row w.db) } Q := Iff.rfl

theorem post_advisoryLock (a : S.Advisory) (k : Unit → Tx S ρ) :
    (advisoryLock a k).Post db w Q ↔ (k ()).Post db w Q := Iff.rfl

theorem post_savepoint (k : Unit → Tx S ρ) :
    (savepoint k).Post db w Q ↔ (k ()).Post db { w with saved := w.db :: w.saved } Q := Iff.rfl

theorem post_releaseSavepoint (k : Unit → Tx S ρ) :
    (releaseSavepoint k).Post db w Q ↔ (k ()).Post db { w with saved := w.saved.tail } Q :=
  Iff.rfl

theorem post_rollbackToSavepoint (k : Unit → Tx S ρ) :
    (rollbackToSavepoint k).Post db w Q ↔
      (k ()).Post db ⟨w.saved.headD w.db, w.saved.tail⟩ Q := Iff.rfl

theorem post_ite {q : Prop} [Decidable q] {m m' : Op S ρ α} {k : α → Tx S ρ} :
    ((if q then m else m') k).Post db w Q ↔
      (q → (m k).Post db w Q) ∧ (¬q → (m' k).Post db w Q) := by
  split
  · rename_i h
    exact ⟨fun hm => ⟨fun _ => hm, fun hn => absurd h hn⟩, fun hm => hm.1 h⟩
  · rename_i h
    exact ⟨fun hm => ⟨fun hc => absurd hc h, fun _ => hm⟩, fun hm => hm.2 h⟩

theorem post_updateKeys {t : S.Table} {p : S.Row t → Bool} {set : S.Row t → S.Row t}
    (hp : ∀ r, p (set r) = p r) (hkey : ∀ r, S.key (set r) = S.key r)
    (hset : ∀ r, set (set r) = set r) {k : Unit → Tx S ρ} :
    ∀ (ks : List S.Key) (w : Work S), (updateKeys t p set ks k).Post db w Q ↔ (k ()).Post db
      { w with db := w.db.update t (fun r => p r && decide (S.key r ∈ ks)) set } Q := by
  intro ks
  induction ks with
  | nil =>
      intro w
      have e : w.db.update t (fun r => p r && decide (S.key r ∈ [])) set = w.db :=
        Db.update_none _ t _ set fun r _ => by simp
      rw [e]
      exact Iff.rfl
  | cons key ks ih =>
      intro w
      have hq : ∀ r, (p (set r) && decide (S.key (set r) ∈ ks)) =
          (p r && decide (S.key r ∈ ks)) := fun r => by rw [hp, hkey]
      have e : (w.db.update t (fun r => p r && decide (S.key r = key)) set).update t
          (fun r => p r && decide (S.key r ∈ ks)) set =
          w.db.update t (fun r => p r && decide (S.key r ∈ key :: ks)) set := by
        rw [Db.update_update w.db t hq hset]
        refine Db.update_congr _ t set fun r _ => ?_
        by_cases hpr : p r = true
        · simp [hpr, List.mem_cons]
        · simp [hpr]
      rw [← e]
      exact ih { w with db := w.db.update t (fun r => p r && decide (S.key r = key)) set }

/-- **Row after row is the same as all rows at once.** -/
theorem post_updateEach {t : S.Table} {p : S.Row t → Bool} {set : S.Row t → S.Row t}
    {scan : List S.Key → List S.Key} (hp : ∀ r, p (set r) = p r)
    (hkey : ∀ r, S.key (set r) = S.key r) (hset : ∀ r, set (set r) = set r)
    (hscan : ∀ ks, (scan ks).Perm ks) {k : Unit → Tx S ρ} :
    (updateEach t p set scan k).Post db w Q ↔
      (k ()).Post db { w with db := w.db.update t p set } Q := by
  have e : w.db.update t (fun r => p r && decide (S.key r ∈
      scan (((w.db.rows t).filter p).map S.key))) set = w.db.update t p set := by
    refine Db.update_congr _ t set fun r hr => ?_
    by_cases hpr : p r = true
    · have hmem : S.key r ∈ scan (((w.db.rows t).filter p).map S.key) :=
        (hscan _).mem_iff.mpr (List.mem_map_of_mem (List.mem_filter.mpr ⟨hr, hpr⟩))
      simp [hpr, hmem]
    · simp [hpr]
  rw [← e]
  exact post_updateKeys hp hkey hset _ w

end Post

/-! ## 4. Which tables an operation writes -/

section Within

variable {ρ α : Type} {T : S.Table → Prop}

/-- A statement that writes only tables of `T`. -/
def Stmt.Within {β : Type} (T : S.Table → Prop) : Stmt S β → Prop
  | .update t _ _ => T t
  | .insert t _ => T t
  | .upsert t _ _ => T t
  | _ => True

/-- An operation that writes only tables of `T`, whatever the answers are. -/
def Tx.Within (T : S.Table → Prop) : Tx S ρ → Prop
  | .commit _ => True
  | .abort _ => True
  | .stmt s k => s.Within T ∧ ∀ b, (k b).Within T

theorem Stmt.exec_within {β : Type} {s : Stmt S β} (h : s.Within T) {t : S.Table} (ht : ¬T t)
    {rows : List (S.Row t)} {w : Work S} (hw : w.db.rows t = rows)
    (hs : ∀ d ∈ w.saved, d.rows t = rows) :
    (s.exec w).2.db.rows t = rows ∧ ∀ d ∈ (s.exec w).2.saved, d.rows t = rows := by
  cases s with
  | update u p set =>
      have hne : t ≠ u := fun e => ht (e ▸ h)
      exact ⟨(Db.update_rows_ne _ p set hne).trans hw, hs⟩
  | insert u row =>
      have hne : t ≠ u := fun e => ht (e ▸ h)
      exact ⟨(Db.insert_rows_ne _ _ hne).trans hw, hs⟩
  | upsert u row set =>
      have hne : t ≠ u := fun e => ht (e ▸ h)
      exact ⟨(Db.upsert_rows_ne _ _ _ hne).trans hw, hs⟩
  | savepoint => exact ⟨hw, List.forall_mem_cons.mpr ⟨hw, hs⟩⟩
  | releaseSavepoint => exact ⟨hw, fun d hd => hs d (List.mem_of_mem_tail hd)⟩
  | rollbackToSavepoint =>
      refine ⟨?_, fun d hd => hs d (List.mem_of_mem_tail hd)⟩
      cases w with
      | mk db saved =>
        cases saved with
        | nil => exact hw
        | cons d saved => exact hs d List.mem_cons_self
  | _ => exact ⟨hw, hs⟩

/-- **The tables an operation does not write stay as they are.** -/
theorem run_within {p : Tx S ρ} (h : p.Within T) {t : S.Table} (ht : ¬T t) (db : Db S) :
    (p.run db).2.rows t = db.rows t := by
  have hexec : ∀ (p : Tx S ρ) (w : Work S), p.Within T → w.db.rows t = db.rows t →
      (∀ d ∈ w.saved, d.rows t = db.rows t) → (p.exec db w).2.rows t = db.rows t := by
    intro p
    induction p with
    | commit r => exact fun w _ hw _ => hw
    | abort r => exact fun _ _ _ _ => rfl
    | stmt s k ih =>
        intro w h hw hs
        obtain ⟨hw', hs'⟩ := Stmt.exec_within h.1 ht hw hs
        exact ih _ _ (h.2 _) hw' hs'
  exact hexec p _ h rfl fun _ hd => by cases hd

theorem within_map {ρ' : Type} (f : ρ → ρ') {p : Tx S ρ} (h : p.Within T) :
    (p.map f).Within T := by
  induction p with
  | commit r => trivial
  | abort r => trivial
  | stmt s k ih => exact ⟨h.1, fun b => ih b (h.2 b)⟩

section Rules

variable {k : α → Tx S ρ}

@[simp] theorem within_commit (r : ρ) : (commit r k).Within T ↔ True := Iff.rfl

@[simp] theorem within_abort (r : ρ) : (abort r k).Within T ↔ True := Iff.rfl

@[simp] theorem within_ensure (c : Prop) [Decidable c] (r : ρ) (k : Unit → Tx S ρ) :
    (ensure c r k).Within T ↔ (c → (k ()).Within T) := by
  unfold ensure
  split
  · rename_i h
    exact ⟨fun hk _ => hk, fun hk => hk h⟩
  · rename_i h
    exact ⟨fun _ hc => absurd hc h, fun _ => trivial⟩

@[simp] theorem within_checked {ε : Type} (x : Except ε α) (r : ε → ρ) :
    (checked x r k).Within T ↔ ∀ a, x = .ok a → (k a).Within T := by
  cases x with
  | ok a => exact ⟨fun h _ e => by cases e; exact h, fun h => h a rfl⟩
  | error e => exact ⟨fun _ _ h => (by cases h), fun _ => trivial⟩

@[simp] theorem within_select (q : Db S → α) :
    (select q k).Within T ↔ ∀ a, (k a).Within T :=
  ⟨fun h => h.2, fun h => ⟨trivial, h⟩⟩

@[simp] theorem within_selectOr (q : Db S → Option α) (r : ρ) :
    (selectOr q r k).Within T ↔ ∀ a, (k a).Within T := by
  refine ⟨fun h a => h.2 (some a), fun h => ⟨trivial, fun o => ?_⟩⟩
  cases o with
  | none => exact trivial
  | some a => exact h a

@[simp] theorem within_lockOr (t : S.Table) (p : S.Row t → Bool) (r : ρ)
    (k : S.Row t → Tx S ρ) : (lockOr t p r k).Within T ↔ ∀ row, (k row).Within T := by
  refine ⟨fun h row => h.2 (some row), fun h => ⟨trivial, fun o => ?_⟩⟩
  cases o with
  | none => exact trivial
  | some row => exact h row

@[simp] theorem within_update (t : S.Table) (p : S.Row t → Bool) (set : S.Row t → S.Row t)
    (k : List (S.Row t) → Tx S ρ) :
    (update t p set k).Within T ↔ T t ∧ ∀ rows, (k rows).Within T := Iff.rfl

@[simp] theorem within_insert (t : S.Table) (row : Db S → S.Row t) (k : S.Row t → Tx S ρ) :
    (insert t row k).Within T ↔ T t ∧ ∀ row, (k row).Within T := Iff.rfl

@[simp] theorem within_upsert (t : S.Table) (row : S.Row t) (set : S.Row t → S.Row t)
    (k : Unit → Tx S ρ) : (upsert t row set k).Within T ↔ T t ∧ (k ()).Within T :=
  ⟨fun h => ⟨h.1, h.2 ()⟩, fun h => ⟨h.1, fun _ => h.2⟩⟩

@[simp] theorem within_advisoryLock (a : S.Advisory) (k : Unit → Tx S ρ) :
    (advisoryLock a k).Within T ↔ (k ()).Within T :=
  ⟨fun h => h.2 (), fun h => ⟨trivial, fun _ => h⟩⟩

@[simp] theorem within_savepoint (k : Unit → Tx S ρ) :
    (savepoint k).Within T ↔ (k ()).Within T :=
  ⟨fun h => h.2 (), fun h => ⟨trivial, fun _ => h⟩⟩

@[simp] theorem within_releaseSavepoint (k : Unit → Tx S ρ) :
    (releaseSavepoint k).Within T ↔ (k ()).Within T :=
  ⟨fun h => h.2 (), fun h => ⟨trivial, fun _ => h⟩⟩

@[simp] theorem within_rollbackToSavepoint (k : Unit → Tx S ρ) :
    (rollbackToSavepoint k).Within T ↔ (k ()).Within T :=
  ⟨fun h => h.2 (), fun h => ⟨trivial, fun _ => h⟩⟩

theorem within_updateKeys {t : S.Table} {p : S.Row t → Bool} {set : S.Row t → S.Row t}
    {k : Unit → Tx S ρ} (ht : T t) (h : (k ()).Within T) :
    ∀ ks : List S.Key, (updateKeys t p set ks k).Within T
  | [] => h
  | _ :: ks => ⟨ht, fun _ => within_updateKeys ht h ks⟩

theorem within_updateEach {t : S.Table} {p : S.Row t → Bool} {set : S.Row t → S.Row t}
    {scan : List S.Key → List S.Key} {k : Unit → Tx S ρ} (ht : T t) (h : (k ()).Within T) :
    (updateEach t p set scan k).Within T :=
  ⟨trivial, fun _ => within_updateKeys ht h _⟩

theorem within_ite {q : Prop} [Decidable q] {m m' : Op S ρ α} :
    ((if q then m else m') k).Within T ↔ (q → (m k).Within T) ∧ (¬q → (m' k).Within T) := by
  split
  · rename_i h
    exact ⟨fun hm => ⟨fun _ => hm, fun hn => absurd h hn⟩, fun hm => hm.1 h⟩
  · rename_i h
    exact ⟨fun hm => ⟨fun hc => absurd hc h, fun _ => hm⟩, fun hm => hm.2 h⟩

end Rules

end Within

/-! ## 5. Programs that agree -/

section Agree

variable {ρ α : Type} {db : Db S} {w : Work S}

/-- **The rests of two operations return and leave the same.** -/
def Tx.Agree (p q : Tx S ρ) (db : Db S) (w : Work S) : Prop := p.exec db w = q.exec db w

theorem Tx.Agree.refl (p : Tx S ρ) : p.Agree p db w := rfl

theorem agree_ensure {c : Prop} [Decidable c] {r : ρ} {k k' : Unit → Tx S ρ}
    (h : c → (k ()).Agree (k' ()) db w) : (ensure c r k).Agree (ensure c r k') db w := by
  unfold ensure
  split
  · rename_i hc
    exact h hc
  · rfl

/-- One check, written in two ways. -/
theorem agree_ensure_iff {c c' : Prop} [Decidable c] [Decidable c'] (hc : c ↔ c') {r : ρ}
    {k : Unit → Tx S ρ} : (ensure c r k).Agree (ensure c' r k) db w := by
  unfold ensure
  by_cases h : c
  · rw [if_pos h, if_pos (hc.mp h)]
    rfl
  · rw [if_neg h, if_neg fun h' => h (hc.mpr h')]
    rfl

/-- A check that holds, made by the first operation only. -/
theorem agree_ensure_pos {c : Prop} [Decidable c] (hc : c) {r : ρ} {k : Unit → Tx S ρ}
    {q : Tx S ρ} (h : (k ()).Agree q db w) : (ensure c r k).Agree q db w := by
  unfold ensure
  rwa [if_pos hc]

/-- Two checks that pass. -/
theorem agree_checked {ε : Type} {x x' : Except ε α} {a a' : α} (hx : x = .ok a)
    (hx' : x' = .ok a') {r r' : ε → ρ} {k k' : α → Tx S ρ} (h : (k a).Agree (k' a') db w) :
    (checked x r k).Agree (checked x' r' k') db w := by
  subst hx hx'
  exact h

/-- A check that passes, made by the first operation only. -/
theorem agree_checked_ok {ε : Type} {x : Except ε α} {a : α} (hx : x = .ok a) {r : ε → ρ}
    {k : α → Tx S ρ} {q : Tx S ρ} (h : (k a).Agree q db w) : (checked x r k).Agree q db w := by
  subst hx
  exact h

theorem agree_selectOr {f : Db S → Option α} {r : ρ} {k k' : α → Tx S ρ}
    (h : ∀ a, f w.db = some a → (k a).Agree (k' a) db w) :
    (selectOr f r k).Agree (selectOr f r k') db w := by
  unfold selectOr Tx.Agree
  simp only [Tx.exec, Stmt.exec]
  cases ha : f w.db with
  | none => rfl
  | some a => exact h a ha

/-- A lookup whose answer is known, made by the first operation only. -/
theorem agree_selectOr_some {f : Db S → Option α} {a : α} (ha : f w.db = some a) {r : ρ}
    {k : α → Tx S ρ} {q : Tx S ρ} (h : (k a).Agree q db w) : (selectOr f r k).Agree q db w := by
  unfold selectOr Tx.Agree
  simp only [Tx.exec, Stmt.exec, ha]
  exact h

theorem agree_lockOr {t : S.Table} {p : S.Row t → Bool} {r : ρ} {k k' : S.Row t → Tx S ρ}
    (h : ∀ row, (w.db.rows t).find? p = some row → (k row).Agree (k' row) db w) :
    (lockOr t p r k).Agree (lockOr t p r k') db w := by
  unfold lockOr Tx.Agree
  simp only [Tx.exec, Stmt.exec]
  cases hrow : (w.db.rows t).find? p with
  | none => rfl
  | some row => exact h row hrow

theorem agree_update {t : S.Table} {p : S.Row t → Bool} {set : S.Row t → S.Row t}
    {k k' : List (S.Row t) → Tx S ρ} (h : ∀ rows, (k rows).Agree (k' rows) db
      { w with db := w.db.update t p set }) :
    (update t p set k).Agree (update t p set k') db w := h _

theorem agree_insert {t : S.Table} {row : Db S → S.Row t} {k k' : S.Row t → Tx S ρ}
    (h : ∀ r, (k r).Agree (k' r) db { w with db := w.db.insert t (row w.db) }) :
    (insert t row k).Agree (insert t row k') db w := h _

theorem agree_ite {c : Prop} [Decidable c] {m m' n n' : Op S ρ α} {k : α → Tx S ρ}
    (hpos : c → (m k).Agree (n k) db w) (hneg : ¬c → (m' k).Agree (n' k) db w) :
    ((if c then m else m') k).Agree ((if c then n else n') k) db w := by
  split
  · rename_i hc
    exact hpos hc
  · rename_i hc
    exact hneg hc

end Agree

end Sql
