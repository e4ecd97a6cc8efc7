/-
  File:      Eri/Sql/Machine.lean
  Subject:   Many operations at once, statement by statement, under READ COMMITTED.

  A thread of the machine runs one call. Its `Local` is what PostgreSQL keeps for the open
  transaction: the uncommitted writes as a function of the committed rows, the locks, and the
  same two for each open savepoint. A statement sees the rows committed when it executes plus
  the thread's own writes; it executes only when no other thread holds a row or an advisory
  lock it takes, so a statement that had to wait answers with the rows of that later moment.
  Every row a transaction locks, changes or inserts is locked until the transaction ends, or
  until a rollback to a savepoint set before.

  * `Stmt.step` -- one statement in a transaction, `Local.work` its reading as `Stmt.exec`;
  * `Step`, `Reachable` -- the machine; `log` lists the calls in the order they take effect,
    `trace` when each call starts and returns;
  * `Solo` -- one thread with the committed rows held fixed, `run_of_solo`: this is `Tx.run`.
-/
import Eri.Sql.Program
import Mathlib.Logic.Relation

namespace Sql

variable {S : Schema}

/-! ## 1. A statement inside a transaction -/

/-- What a transaction can hold: a row, named by its table and key, or an advisory lock. -/
inductive Lock (S : Schema) where
  | row (t : S.Table) (k : S.Key)
  | advisory (a : S.Advisory)
  deriving DecidableEq

/-- The uncommitted state of a transaction: its writes, its locks, and whether it wrote. -/
structure Frame (S : Schema) where
  eff : Db S → Db S
  held : List (Lock S)
  wrote : Bool

/-- A transaction's frame and one frame for each open savepoint. -/
structure Local (S : Schema) where
  now : Frame S
  saved : List (Frame S)

def Local.init : Local S := ⟨⟨id, [], false⟩, []⟩

/-- Take more locks. -/
def Local.lock (l : Local S) (ks : List (Lock S)) : Local S :=
  { l with now := { l.now with held := ks ++ l.now.held } }

/-- Write after the writes so far. -/
def Local.write (l : Local S) (f : Db S → Db S) : Local S :=
  { l with now := { l.now with eff := fun db => f (l.now.eff db), wrote := true } }

@[simp] theorem Local.lock_eff (l : Local S) (ks : List (Lock S)) :
    (l.lock ks).now.eff = l.now.eff := rfl
@[simp] theorem Local.lock_held (l : Local S) (ks : List (Lock S)) :
    (l.lock ks).now.held = ks ++ l.now.held := rfl
@[simp] theorem Local.lock_wrote (l : Local S) (ks : List (Lock S)) :
    (l.lock ks).now.wrote = l.now.wrote := rfl
@[simp] theorem Local.lock_saved (l : Local S) (ks : List (Lock S)) :
    (l.lock ks).saved = l.saved := rfl
@[simp] theorem Local.write_eff (l : Local S) (f : Db S → Db S) (db : Db S) :
    (l.write f).now.eff db = f (l.now.eff db) := rfl
@[simp] theorem Local.write_held (l : Local S) (f : Db S → Db S) :
    (l.write f).now.held = l.now.held := rfl
@[simp] theorem Local.write_wrote (l : Local S) (f : Db S → Db S) :
    (l.write f).now.wrote = true := rfl
@[simp] theorem Local.write_saved (l : Local S) (f : Db S → Db S) :
    (l.write f).saved = l.saved := rfl

/-- The rows of `t` an `UPDATE … WHERE p` in the transaction changes. -/
def Local.hit (l : Local S) (db : Db S) (t : S.Table) (p : S.Row t → Bool) : List (S.Row t) :=
  ((l.now.eff db).rows t).filter p

/-- **One statement in a transaction over the committed rows `db`.** An `UPDATE` changes the
    rows it locked, and them only if they still meet its predicate. -/
def Stmt.step {β : Type} : Stmt S β → Db S → Local S → β × Local S
  | .select q, db, l => (q (l.now.eff db), l)
  | .selectForUpdate t p, db, l =>
      match ((l.now.eff db).rows t).find? p with
      | some r => (some r, l.lock [.row t (S.key r)])
      | none => (none, l)
  | .update t p set, db, l =>
      let keys := (l.hit db t p).map S.key
      if keys = [] then ([], l) else
        ((l.hit db t p).map set, (l.lock (keys.map (Lock.row t))).write
          fun d => d.update t (fun r => p r && decide (S.key r ∈ keys)) set)
  | .insert t row, db, l =>
      let r := row (l.now.eff db)
      (r, (l.lock [.row t (S.key r)]).write fun d => d.insert t r)
  | .upsert t row set, _, l =>
      ((), (l.lock [.row t (S.key row)]).write fun d => d.upsert t row set)
  | .advisoryLock a, _, l => ((), l.lock [.advisory a])
  | .savepoint, _, l => ((), { l with saved := l.now :: l.saved })
  | .releaseSavepoint, _, l => ((), { l with saved := l.saved.tail })
  | .rollbackToSavepoint, _, l => ((), ⟨l.saved.headD l.now, l.saved.tail⟩)

/-- Only a rollback to a savepoint gives locks back. -/
def Stmt.isRollback {β : Type} : Stmt S β → Bool
  | .rollbackToSavepoint => true
  | _ => false

theorem Stmt.held_subset {β : Type} (s : Stmt S β) (hs : s.isRollback = false) (db : Db S)
    (l : Local S) : l.now.held ⊆ (s.step db l).2.now.held := by
  cases s with
  | selectForUpdate t p =>
      simp only [Stmt.step]
      split
      · exact List.subset_cons_self ..
      · exact List.Subset.refl _
  | update t p set =>
      simp only [Stmt.step]
      split
      · exact List.Subset.refl _
      · exact List.subset_append_right ..
  | insert t row => exact List.subset_cons_self ..
  | upsert t row set => exact List.subset_cons_self ..
  | advisoryLock a => exact List.subset_cons_self ..
  | rollbackToSavepoint => cases hs
  | _ => exact List.Subset.refl _

/-- The working rows of a transaction over the committed rows `db`. -/
def Local.work (l : Local S) (db : Db S) : Work S := ⟨l.now.eff db, l.saved.map (·.eff db)⟩

/-- **A statement in a transaction answers and writes as `Stmt.exec` says.** -/
theorem Stmt.step_exec {β : Type} (s : Stmt S β) (db : Db S) (l : Local S) :
    s.exec (l.work db) = ((s.step db l).1, (s.step db l).2.work db) := by
  cases s with
  | selectForUpdate t p =>
      simp only [Stmt.step, Stmt.exec]
      have e : (l.work db).db = l.now.eff db := rfl
      rw [e]
      cases ((l.now.eff db).rows t).find? p <;> rfl
  | update t p set =>
      simp only [Stmt.step, Stmt.exec]
      have e : (l.work db).db = l.now.eff db := rfl
      rw [e]
      split
      · rename_i h
        have hnone : ((l.now.eff db).rows t).filter p = [] := List.map_eq_nil_iff.mp h
        rw [Db.update_none _ t p set fun r hr => by
          simpa using List.filter_eq_nil_iff.mp hnone r hr, hnone]
        rfl
      · refine Prod.ext rfl ?_
        show (⟨_, _⟩ : Work S) = ⟨_, _⟩
        congr 1
        refine Db.update_congr _ t set fun r hr => ?_
        by_cases hp : p r = true
        · have hk : S.key r ∈ (l.hit db t p).map S.key :=
            List.mem_map_of_mem (List.mem_filter.mpr ⟨hr, hp⟩)
          simp [hp, hk]
        · simp [hp]
  | rollbackToSavepoint =>
      simp only [Stmt.step, Stmt.exec]
      cases l with
      | mk now saved => cases saved <;> rfl
  | releaseSavepoint =>
      simp only [Stmt.step, Stmt.exec]
      cases l with
      | mk now saved => cases saved <;> rfl
  | _ => rfl

/-! ## 2. A call alone -/

section Solo

variable {ρ : Type}

/-- The value a call will return, once nothing it can still do depends on the rows: it only
    has to drop its transaction, or to commit one that wrote nothing. -/
def outcome : Tx S ρ × Local S → Option ρ
  | (.abort r, _) => some r
  | (.commit r, l) => if l.now.wrote then none else some r
  | (.stmt _ _, _) => none

/-- One statement of a call, with the committed rows `db`. -/
inductive SoloStep (db : Db S) : Tx S ρ × Local S → Tx S ρ × Local S → Prop where
  | stmt {β : Type} (s : Stmt S β) (k : β → Tx S ρ) (l : Local S) :
      SoloStep db (.stmt s k, l) (k (s.step db l).1, (s.step db l).2)

/-- Any number of statements of a call while the committed rows stay `db`. -/
abbrev Solo (db : Db S) : Tx S ρ × Local S → Tx S ρ × Local S → Prop :=
  Relation.ReflTransGen (SoloStep db)

theorem outcome_stops {db : Db S} {a b : Tx S ρ × Local S} (ha : (outcome a).isSome = true)
    (h : Solo db a b) : b = a := by
  cases h.cases_head with
  | inl e => exact e.symm
  | inr h =>
      obtain ⟨c, hc, _⟩ := h
      cases hc
      cases ha

/-- A frame that wrote nothing changes nothing. -/
def Frame.Clean (f : Frame S) : Prop := f.wrote = false → ∀ db, f.eff db = db

def Local.Clean (l : Local S) : Prop := l.now.Clean ∧ ∀ f ∈ l.saved, f.Clean

theorem Local.clean_init : (Local.init : Local S).Clean :=
  ⟨fun _ _ => rfl, fun _ h => absurd h List.not_mem_nil⟩

theorem Stmt.step_clean {β : Type} (s : Stmt S β) (db : Db S) {l : Local S} (h : l.Clean) :
    (s.step db l).2.Clean := by
  have hwrite : ∀ ks f, ((l.lock ks).write f).Clean := fun ks f => ⟨fun e => (by cases e), h.2⟩
  cases s with
  | selectForUpdate t p =>
      simp only [Stmt.step]
      split
      · exact h
      · exact h
  | update t p set =>
      simp only [Stmt.step]
      split
      · exact h
      · exact hwrite _ _
  | insert t row => exact hwrite _ _
  | upsert t row set => exact hwrite _ _
  | savepoint => exact ⟨h.1, List.forall_mem_cons.mpr h⟩
  | releaseSavepoint => exact ⟨h.1, fun f hf => h.2 f (List.mem_of_mem_tail hf)⟩
  | rollbackToSavepoint =>
      cases l with
      | mk now saved =>
        cases saved with
        | nil => exact h
        | cons f saved => exact List.forall_mem_cons.mp h.2
  | _ => exact h

theorem solo_clean {db : Db S} {a b : Tx S ρ × Local S} (h : Solo db a b) (ha : a.2.Clean) :
    b.2.Clean := by
  induction h with
  | refl => exact ha
  | tail _ hs ih =>
      cases hs with
      | stmt s k l => exact Stmt.step_clean s db ih

/-- Statements already executed do not change what the whole call returns and leaves. -/
theorem exec_of_solo {db : Db S} {a b : Tx S ρ × Local S} (h : Solo db a b) :
    a.1.exec db (a.2.work db) = b.1.exec db (b.2.work db) := by
  induction h with
  | refl => rfl
  | tail _ hs ih =>
      cases hs with
      | stmt s k l =>
          rw [ih]
          show (k (s.exec (l.work db)).1).exec db (s.exec (l.work db)).2 = _
          rw [Stmt.step_exec]

/-- **A call alone that reaches `COMMIT` returns and leaves what `Tx.run` says.** -/
theorem run_of_solo_commit {db : Db S} {p : Tx S ρ} {r : ρ} {l : Local S}
    (h : Solo db (p, .init) (.commit r, l)) : p.run db = (r, l.now.eff db) :=
  exec_of_solo h

/-- **A call alone whose outcome is settled returns it and changes nothing.** -/
theorem run_of_solo_outcome {db : Db S} {p q : Tx S ρ} {r : ρ} {l : Local S}
    (h : Solo db (p, .init) (q, l)) (ho : outcome (q, l) = some r) : p.run db = (r, db) := by
  have e : p.run db = q.exec db (l.work db) := exec_of_solo h
  rw [e]
  cases q with
  | abort r' => cases ho; rfl
  | commit r' =>
      simp only [outcome] at ho
      split at ho
      · cases ho
      · rename_i hw
        cases ho
        show (r, l.now.eff db) = (r, db)
        rw [(solo_clean h Local.clean_init).1 (by simpa using hw) db]
  | stmt s k => cases ho

end Solo

/-! ## 3. The machine -/

/-- Where a call stands: what is left of its program and its transaction, its answer, or a
    database error that ended it. -/
inductive Status (S : Schema) (ρ : Type) : Type 1 where
  | running (p : Tx S ρ) (l : Local S)
  | replied (r : ρ)
  | failed

structure Thread (S : Schema) (C ρ : Type) : Type 1 where
  call : C
  status : Status S ρ

/-- A call that took effect: who made it, what it returned, the committed rows before and
    after. -/
structure Entry (S : Schema) (C ρ : Type) where
  thread : Nat
  call : C
  reply : ρ
  before : Db S
  after : Db S

inductive Event where
  | start (i : Nat)
  | reply (i : Nat)
  deriving DecidableEq

/-- The committed rows, the calls made so far (thread `i` is the `i`th of them), the calls
    that took effect in that order, and when calls started and returned. -/
structure Machine (S : Schema) (C ρ : Type) : Type 1 where
  db : Db S
  threads : List (Thread S C ρ)
  log : List (Entry S C ρ)
  trace : List Event

section Machine

variable {C ρ : Type}

def Machine.init (db : Db S) : Machine S C ρ := ⟨db, [], [], []⟩

/-- A call takes effect with its last look at the rows when it will not commit a write. -/
def settle (i : Nat) (c : C) (db : Db S) (a : Tx S ρ × Local S) : List (Entry S C ρ) :=
  match outcome a with
  | some r => [⟨i, c, r, db, db⟩]
  | none => []

/-- Thread `i` runs the call `c` and stands at `st`. -/
def Machine.At (M : Machine S C ρ) (i : Nat) (c : C) (st : Status S ρ) : Prop :=
  M.threads[i]? = some ⟨c, st⟩

/-- No other thread holds one of the locks. -/
def Machine.Free (M : Machine S C ρ) (i : Nat) (ks : List (Lock S)) : Prop :=
  ∀ j c p l, j ≠ i → M.At j c (.running p l) → ∀ k ∈ ks, k ∉ l.now.held

/-- **One step of the machine**: a call starts, a call executes one statement, a call
    commits its writes and returns, a call without writes ends its transaction and returns,
    or the database refuses a statement or the commit (a lost connection, a deadlock, a
    violated constraint), which drops the transaction. `compat` is what calls of one run
    never share (the random values they draw). -/
inductive Step (prog : C → Tx S ρ) (compat : C → C → Prop) :
    Machine S C ρ → Machine S C ρ → Prop where
  | start (M : Machine S C ρ) (c : C) (hc : ∀ th ∈ M.threads, compat th.call c) :
      Step prog compat M
        ⟨M.db, M.threads ++ [⟨c, .running (prog c) .init⟩],
         M.log ++ settle M.threads.length c M.db (prog c, .init),
         M.trace ++ [.start M.threads.length]⟩
  | stmt (M : Machine S C ρ) (i : Nat) (c : C) {β : Type} (s : Stmt S β) (k : β → Tx S ρ)
      (l : Local S) (hi : M.At i c (.running (.stmt s k) l))
      (hfree : M.Free i (s.step M.db l).2.now.held) :
      Step prog compat M
        ⟨M.db, M.threads.set i ⟨c, .running (k (s.step M.db l).1) (s.step M.db l).2⟩,
         M.log ++ settle i c M.db (k (s.step M.db l).1, (s.step M.db l).2), M.trace⟩
  | commit (M : Machine S C ρ) (i : Nat) (c : C) (r : ρ) (l : Local S)
      (hi : M.At i c (.running (.commit r) l)) (hw : l.now.wrote = true) :
      Step prog compat M
        ⟨l.now.eff M.db, M.threads.set i ⟨c, .replied r⟩,
         M.log ++ [⟨i, c, r, M.db, l.now.eff M.db⟩], M.trace ++ [.reply i]⟩
  | finish (M : Machine S C ρ) (i : Nat) (c : C) (r : ρ) (p : Tx S ρ) (l : Local S)
      (hi : M.At i c (.running p l)) (ho : outcome (p, l) = some r) :
      Step prog compat M
        ⟨M.db, M.threads.set i ⟨c, .replied r⟩, M.log, M.trace ++ [.reply i]⟩
  | fail (M : Machine S C ρ) (i : Nat) (c : C) (p : Tx S ρ) (l : Local S)
      (hi : M.At i c (.running p l)) (ho : outcome (p, l) = none) :
      Step prog compat M ⟨M.db, M.threads.set i ⟨c, .failed⟩, M.log, M.trace⟩

/-- The machines a run from the committed rows `db` goes through. -/
inductive Reachable (prog : C → Tx S ρ) (compat : C → C → Prop) (db : Db S) :
    Machine S C ρ → Prop where
  | init : Reachable prog compat db (.init db)
  | step {M M' : Machine S C ρ} (h : Reachable prog compat db M)
      (hs : Step prog compat M M') : Reachable prog compat db M'

end Machine

end Sql
