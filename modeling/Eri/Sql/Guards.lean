/-
  File:      Eri/Sql/Guards.lean
  Subject:   Programs that look at a clock once more before they commit.

  A call may read a clock between its statements, so the program it is depends on the
  readings. Two programs are `Alike` when they execute the same statements and differ only in
  how they end; a program whose last reading is a guard is alike to itself under any other
  reading there, ended by a refusal.

  * `Tx.writes` -- the rows a program works on after each write it executes;
  * `Alike`, one rule for each step of a program -- the same statements, then ends related
    by `E`;
  * `Refuses` -- ends that are the same and free, or where the second one refuses;
  * `Alike.writes`, **`Alike.run`** -- the same writes, and a refused program leaves nothing.
-/
import Eri.Sql.Program

namespace Sql

variable {S : Schema} {ρ ρ' α : Type}

/-! ## 1. Writes -/

/-- A statement that writes. -/
def Stmt.isWrite {β : Type} : Stmt S β → Bool
  | .update .. | .insert .. | .upsert .. => true
  | _ => false

/-- The working rows after each write a program executes. -/
def Tx.writes : Tx S ρ → Work S → List (Db S)
  | .commit _, _ => []
  | .abort _, _ => []
  | .stmt s k, w =>
      let rest := (k (s.exec w).1).writes (s.exec w).2
      if s.isWrite then (s.exec w).2.db :: rest else rest

/-- The program ends with `COMMIT`. -/
def Tx.Commits : Tx S ρ → Work S → Prop
  | .commit _, _ => True
  | .abort _, _ => False
  | .stmt s k, w => (k (s.exec w).1).Commits (s.exec w).2

/-- Without a commit nothing changes. -/
theorem exec_of_not_commits (p : Tx S ρ) :
    ∀ db w, ¬p.Commits w → (p.exec db w).2 = db := by
  induction p with
  | commit r => exact fun db w h => absurd trivial h
  | abort r => exact fun db w _ => rfl
  | stmt s k ih => exact fun db w h => ih _ db _ h

/-- No statement is left. -/
def Tx.Ended : Tx S ρ → Prop
  | .stmt _ _ => False
  | _ => True

theorem ended_ensure {c : Prop} [Decidable c] {r : ρ} {k : Unit → Tx S ρ} (h : (k ()).Ended) :
    (ensure c r k).Ended := by
  unfold ensure
  split
  · exact h
  · trivial

theorem ended_checked {ε : Type} {x : Except ε α} {r : ε → ρ} {k : α → Tx S ρ}
    (h : ∀ a, (k a).Ended) : (checked x r k).Ended := by
  unfold checked
  split
  · exact h _
  · trivial

theorem writes_ended {p : Tx S ρ} (h : p.Ended) (w : Work S) : p.writes w = [] := by
  cases p with
  | commit r => rfl
  | abort r => rfl
  | stmt s k => exact h.elim

/-! ## 2. Programs alike -/

/-- **The same statements**, whatever the answers are, and then ends related by `E`. -/
inductive Alike (E : Tx S ρ → Tx S ρ → Prop) : Tx S ρ → Tx S ρ → Prop where
  | ends {p q : Tx S ρ} (hp : p.Ended) (hq : q.Ended) (h : E p q) : Alike E p q
  | stmt {β : Type} (s : Stmt S β) {k k' : β → Tx S ρ} (h : ∀ b, Alike E (k b) (k' b)) :
      Alike E (.stmt s k) (.stmt s k')

/-- The ends are the same, a rollback or a commit of a free value; or the second is the
    refusal `bad`, when there is a reason to refuse. -/
def Refuses (refuse : Prop) (free : ρ → Prop) (bad : ρ) (p q : Tx S ρ) : Prop :=
  (p = q ∧ ∀ r, p = .commit r → free r) ∨ (refuse → q = .abort bad)

section Rules

variable {refuse : Prop} {free : ρ → Prop} {bad : ρ} {k k' : α → Tx S ρ}

theorem alike_abort (k k' : α → Tx S ρ) (r : ρ) :
    Alike (Refuses refuse free bad) (abort r k) (abort r k') :=
  .ends trivial trivial (Or.inl ⟨rfl, fun _ e => by cases e⟩)

/-- A commit that needs no guard. -/
theorem alike_commit {r : ρ} (h : free r) :
    Alike (Refuses refuse free bad) (commit r k) (commit r k') :=
  .ends trivial trivial (Or.inl ⟨rfl, fun _ e => by cases e; exact h⟩)

/-- **The guard**: from here on nothing is executed, and a reason to refuse is a refusal. -/
theorem alike_guard {ε : Type} {x x' : Except ε α} {r : ε → ρ} (hk : ∀ a, (k a).Ended)
    (hk' : ∀ a, (k' a).Ended) (h : refuse → ∃ e, x' = .error e ∧ r e = bad) :
    Alike (Refuses refuse free bad) (checked x r k) (checked x' r k') := by
  refine .ends (ended_checked hk) (ended_checked hk') (Or.inr fun hrefuse => ?_)
  obtain ⟨e, hx, hbad⟩ := h hrefuse
  rw [hx, ← hbad]
  rfl

theorem alike_ensure {c : Prop} [Decidable c] {r : ρ} {k k' : Unit → Tx S ρ}
    (h : c → Alike (Refuses refuse free bad) (k ()) (k' ())) :
    Alike (Refuses refuse free bad) (ensure c r k) (ensure c r k') := by
  unfold ensure
  split
  · exact h ‹_›
  · exact alike_abort k k' r

theorem alike_checked {ε : Type} {x : Except ε α} {r : ε → ρ}
    (h : ∀ a, x = .ok a → Alike (Refuses refuse free bad) (k a) (k' a)) :
    Alike (Refuses refuse free bad) (checked x r k) (checked x r k') := by
  unfold checked
  split
  · exact h _ rfl
  · exact alike_abort k k' _

theorem alike_select {q : Db S → α} (h : ∀ a, Alike (Refuses refuse free bad) (k a) (k' a)) :
    Alike (Refuses refuse free bad) (select q k) (select q k') := .stmt _ h

theorem alike_selectOr {q : Db S → Option α} {r : ρ}
    (h : ∀ a, Alike (Refuses refuse free bad) (k a) (k' a)) :
    Alike (Refuses refuse free bad) (selectOr q r k) (selectOr q r k') := by
  refine .stmt _ fun o => ?_
  cases o with
  | none => exact alike_abort k k' r
  | some a => exact h a

theorem alike_lockOr {t : S.Table} {p : S.Row t → Bool} {r : ρ} {k k' : S.Row t → Tx S ρ}
    (h : ∀ row, Alike (Refuses refuse free bad) (k row) (k' row)) :
    Alike (Refuses refuse free bad) (lockOr t p r k) (lockOr t p r k') := by
  refine .stmt _ fun o => ?_
  cases o with
  | none => exact alike_abort k k' r
  | some row => exact h row

theorem alike_update {t : S.Table} {p : S.Row t → Bool} {set : S.Row t → S.Row t}
    {k k' : List (S.Row t) → Tx S ρ}
    (h : ∀ rows, Alike (Refuses refuse free bad) (k rows) (k' rows)) :
    Alike (Refuses refuse free bad) (update t p set k) (update t p set k') := .stmt _ h

theorem alike_insert {t : S.Table} {row : Db S → S.Row t} {k k' : S.Row t → Tx S ρ}
    (h : ∀ row, Alike (Refuses refuse free bad) (k row) (k' row)) :
    Alike (Refuses refuse free bad) (insert t row k) (insert t row k') := .stmt _ h

theorem alike_upsert {t : S.Table} {row : S.Row t} {set : S.Row t → S.Row t}
    {k k' : Unit → Tx S ρ} (h : Alike (Refuses refuse free bad) (k ()) (k' ())) :
    Alike (Refuses refuse free bad) (upsert t row set k) (upsert t row set k') :=
  .stmt _ fun _ => h

theorem alike_advisoryLock {a : S.Advisory} {k k' : Unit → Tx S ρ}
    (h : Alike (Refuses refuse free bad) (k ()) (k' ())) :
    Alike (Refuses refuse free bad) (advisoryLock a k) (advisoryLock a k') := .stmt _ fun _ => h

theorem alike_savepoint {k k' : Unit → Tx S ρ}
    (h : Alike (Refuses refuse free bad) (k ()) (k' ())) :
    Alike (Refuses refuse free bad) (savepoint k) (savepoint k') := .stmt _ fun _ => h

theorem alike_releaseSavepoint {k k' : Unit → Tx S ρ}
    (h : Alike (Refuses refuse free bad) (k ()) (k' ())) :
    Alike (Refuses refuse free bad) (releaseSavepoint k) (releaseSavepoint k') :=
  .stmt _ fun _ => h

theorem alike_rollbackToSavepoint {k k' : Unit → Tx S ρ}
    (h : Alike (Refuses refuse free bad) (k ()) (k' ())) :
    Alike (Refuses refuse free bad) (rollbackToSavepoint k) (rollbackToSavepoint k') :=
  .stmt _ fun _ => h

theorem alike_ite {c : Prop} [Decidable c] {m m' n n' : Op S ρ α}
    (h : c → Alike (Refuses refuse free bad) (m k) (m' k'))
    (h' : ¬c → Alike (Refuses refuse free bad) (n k) (n' k')) :
    Alike (Refuses refuse free bad) ((if c then m else n) k) ((if c then m' else n') k') := by
  split
  · exact h ‹_›
  · exact h' ‹_›

end Rules

/-! ## 3. What alike programs do -/

/-- **Alike programs write the same.** -/
theorem Alike.writes {E : Tx S ρ → Tx S ρ → Prop} {p q : Tx S ρ} (h : Alike E p q) :
    ∀ w, q.writes w = p.writes w := by
  induction h with
  | ends hp hq _ => exact fun w => by rw [writes_ended hp, writes_ended hq]
  | stmt s h ih =>
      intro w
      simp only [Tx.writes, ih]

/-- **A refused program leaves nothing**, unless it ends as the other one does, without a
    commit or freely. -/
theorem Alike.run {refuse : Prop} {free : ρ → Prop} {bad : ρ} {p q : Tx S ρ}
    (h : Alike (Refuses refuse free bad) p q) (hrefuse : refuse) :
    ∀ db w, (¬q.Commits w ∧ q.exec db w = (bad, db)) ∨ (q.exec db w = p.exec db w ∧
      (p.Commits w → free (p.exec db w).1)) := by
  induction h with
  | @ends p q hp hq h =>
      intro db w
      rcases h with ⟨rfl, hfree⟩ | hbad
      · refine Or.inr ⟨rfl, fun hcommits => ?_⟩
        cases p with
        | commit r => exact hfree r rfl
        | abort r => exact hcommits.elim
        | stmt s k => exact hp.elim
      · refine Or.inl ?_
        rw [hbad hrefuse]
        exact ⟨fun hcommits => hcommits, rfl⟩
  | stmt s h ih => exact fun db w => ih _ db _

/-- Alike programs stay alike with their values wrapped. -/
theorem Alike.map {refuse : Prop} {free : ρ → Prop} {free' : ρ' → Prop} {bad : ρ} (f : ρ → ρ')
    (hfree : ∀ r, free r → free' (f r)) {p q : Tx S ρ}
    (h : Alike (Refuses refuse free bad) p q) :
    Alike (Refuses refuse free' (f bad)) (p.map f) (q.map f) := by
  induction h with
  | @ends p q hp hq h =>
      refine .ends ?_ ?_ ?_
      · cases p <;> trivial
      · cases q <;> trivial
      · refine h.imp (fun hsame => ⟨by rw [hsame.1], fun r hr => ?_⟩) fun hbad hrefuse => ?_
        · cases p with
          | commit x =>
              cases hr
              exact hfree x (hsame.2 x rfl)
          | abort x => cases hr
          | stmt s k => exact hp.elim
        · rw [hbad hrefuse]
          rfl
  | stmt s h ih => exact .stmt s ih

end Sql
