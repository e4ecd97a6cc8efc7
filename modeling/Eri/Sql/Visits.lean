/-
  File:      Eri/Sql/Visits.lean
  Subject:   The statements a call goes through alone, and the locks it holds at them.

  A call of the machine stands where it would stand alone on the committed rows of now. So what
  it holds, and what its next statement takes, are facts about the call alone.

  * `Tx.Visits` -- `W` holds at every statement a program executes and `E` at its end, with one
    rule for each step of a program;
  * `visits_solo` -- then they hold wherever the call can stand;
  * `solo_end` -- a call alone has one end.
-/
import Eri.Sql.Guards
import Eri.Sql.Rules

namespace Sql

variable {S : Schema} {ρ ρ' α : Type}

/-! ## 1. Everywhere -/

/-- `W` at every statement of a program on the committed rows `db`, and `E` at its end. -/
def Tx.Visits (W : {β : Type} → Stmt S β → Local S → Prop) (E : ρ → Local S → Prop)
    (db : Db S) : Tx S ρ → Local S → Prop
  | .commit r, l => E r l
  | .abort r, l => E r l
  | .stmt s k, l => W s l ∧ (k (s.step db l).1).Visits W E db (s.step db l).2

section Visits

variable {W : {β : Type} → Stmt S β → Local S → Prop} {E : ρ → Local S → Prop}
variable {db : Db S} {l : Local S}

/-- **What holds everywhere holds where the call stands.** -/
theorem visits_solo {a b : Tx S ρ × Local S} (h : a.1.Visits W E db a.2) (hs : Solo db a b) :
    b.1.Visits W E db b.2 := by
  induction hs with
  | refl => exact h
  | tail _ hstep ih =>
      cases hstep with
      | stmt s k l => exact ih.2

theorem visits_map (f : ρ → ρ') {E : ρ' → Local S → Prop} (p : Tx S ρ) :
    ∀ l, (p.map f).Visits W E db l ↔ p.Visits W (fun r => E (f r)) db l := by
  induction p with
  | commit r => exact fun l => Iff.rfl
  | abort r => exact fun l => Iff.rfl
  | stmt s k ih => exact fun l => and_congr_right fun _ => ih _ _

/-! ## 2. One rule for each step -/

theorem visits_abort {r : ρ} (k : α → Tx S ρ) (h : E r l) : (abort r k).Visits W E db l := h

theorem visits_commit {r : ρ} (k : α → Tx S ρ) (h : E r l) :
    (commit r k).Visits W E db l := h

theorem visits_ensure {c : Prop} [Decidable c] {r : ρ} {k : Unit → Tx S ρ}
    (hr : E r l) (h : c → (k ()).Visits W E db l) : (ensure c r k).Visits W E db l := by
  unfold ensure
  split
  · exact h ‹_›
  · exact hr

theorem visits_checked {ε : Type} {x : Except ε α} {r : ε → ρ} {k : α → Tx S ρ}
    (hr : ∀ e, x = .error e → E (r e) l) (h : ∀ a, x = .ok a → (k a).Visits W E db l) :
    (checked x r k).Visits W E db l := by
  unfold checked
  split
  · exact h _ rfl
  · exact hr _ rfl

theorem visits_select {q : Db S → α} {k : α → Tx S ρ} (hW : W (.select q) l)
    (h : (k (q (l.now.eff db))).Visits W E db l) : (select q k).Visits W E db l := ⟨hW, h⟩

theorem visits_selectOr {q : Db S → Option α} {r : ρ} {k : α → Tx S ρ} (hW : W (.select q) l)
    (hr : E r l) (h : ∀ a, q (l.now.eff db) = some a → (k a).Visits W E db l) :
    (selectOr q r k).Visits W E db l := by
  refine ⟨hW, ?_⟩
  simp only [Stmt.step]
  cases hfind : q (l.now.eff db) with
  | none => exact hr
  | some a => exact h a hfind

theorem visits_lockOr {t : S.Table} {p : S.Row t → Bool} {r : ρ} {k : S.Row t → Tx S ρ}
    (hW : W (.selectForUpdate t p) l) (hr : E r l)
    (h : ∀ row, ((l.now.eff db).rows t).find? p = some row →
      (k row).Visits W E db (l.lock [.row t (S.key row)])) :
    (lockOr t p r k).Visits W E db l := by
  refine ⟨hW, ?_⟩
  simp only [Stmt.step]
  cases hfind : ((l.now.eff db).rows t).find? p with
  | none => exact hr
  | some row => exact h row hfind

theorem visits_update {t : S.Table} {p : S.Row t → Bool} {set : S.Row t → S.Row t}
    {k : List (S.Row t) → Tx S ρ} (hW : W (.update t p set) l)
    (h : (k ((l.hit db t p).map set)).Visits W E db
      (l.updated t p set ((l.hit db t p).map S.key))) :
    (update t p set k).Visits W E db l := by
  refine ⟨hW, ?_⟩
  rw [step_update]
  exact h

theorem visits_insert {t : S.Table} {row : Db S → S.Row t} {k : S.Row t → Tx S ρ}
    (hW : W (.insert t row) l)
    (h : (k (row (l.now.eff db))).Visits W E db
      ((l.lock [.row t (S.key (row (l.now.eff db)))]).write
        fun d => d.insert t (row (l.now.eff db)))) :
    (insert t row k).Visits W E db l := ⟨hW, h⟩

theorem visits_upsert {t : S.Table} {row : S.Row t} {set : S.Row t → S.Row t}
    {k : Unit → Tx S ρ} (hW : W (.upsert t row set) l)
    (h : (k ()).Visits W E db
      ((l.lock [.row t (S.key row)]).write fun d => d.upsert t row set)) :
    (upsert t row set k).Visits W E db l := ⟨hW, h⟩

theorem visits_advisoryLock {a : S.Advisory} {k : Unit → Tx S ρ} (hW : W (.advisoryLock a) l)
    (h : (k ()).Visits W E db (l.lock [.advisory a])) :
    (advisoryLock a k).Visits W E db l := ⟨hW, h⟩

theorem visits_savepoint {k : Unit → Tx S ρ} (hW : W (.savepoint) l)
    (h : (k ()).Visits W E db { l with saved := l.now :: l.saved }) :
    (savepoint k).Visits W E db l := ⟨hW, h⟩

theorem visits_releaseSavepoint {k : Unit → Tx S ρ} (hW : W (.releaseSavepoint) l)
    (h : (k ()).Visits W E db { l with saved := l.saved.tail }) :
    (releaseSavepoint k).Visits W E db l := ⟨hW, h⟩

theorem visits_rollbackToSavepoint {k : Unit → Tx S ρ} (hW : W (.rollbackToSavepoint) l)
    (h : (k ()).Visits W E db ⟨l.saved.headD l.now, l.saved.tail⟩) :
    (rollbackToSavepoint k).Visits W E db l := ⟨hW, h⟩

theorem visits_ite {q : Prop} [Decidable q] {m m' : Op S ρ α} {k : α → Tx S ρ}
    (h : q → (m k).Visits W E db l) (h' : ¬q → (m' k).Visits W E db l) :
    ((if q then m else m') k).Visits W E db l := by
  split
  · exact h ‹_›
  · exact h' ‹_›

end Visits

theorem held_updated (l : Local S) (t : S.Table) (p : S.Row t → Bool) (set : S.Row t → S.Row t)
    (keys : List S.Key) :
    (l.updated t p set keys).now.held = keys.map (Lock.row t) ++ l.now.held := by
  unfold Local.updated
  split
  · rename_i h
    rw [h]
    rfl
  · rfl

/-! ## 3. One end -/

/-- A call alone does one thing after the other. -/
theorem soloStep_unique {db : Db S} {a b c : Tx S ρ × Local S} (h : SoloStep db a b)
    (h' : SoloStep db a c) : b = c := by
  cases h with
  | stmt s k l =>
      cases h'
      rfl

theorem ended_stops {db : Db S} {q : Tx S ρ} {l : Local S} {b : Tx S ρ × Local S}
    (hq : q.Ended) (h : Solo db (q, l) b) : b = (q, l) := by
  cases h.cases_head with
  | inl e => exact e.symm
  | inr hstep =>
      obtain ⟨_, hstep, _⟩ := hstep
      cases hstep
      exact hq.elim

/-- **A call alone has one end.** -/
theorem solo_end {db : Db S} {a b : Tx S ρ × Local S} {q : Tx S ρ} {l : Local S}
    (hq : q.Ended) (h : Solo db a (q, l)) (hb : Solo db a b) : Solo db b (q, l) := by
  have hunique : Relator.RightUnique (@SoloStep _ ρ db) := fun _ _ _ => soloStep_unique
  rcases Relation.ReflTransGen.total_of_right_unique hunique h hb with hqb | hbq
  · cases ended_stops hq hqb
    exact .refl
  · exact hbq

/-- What holds at every end of a call alone holds at its end. -/
theorem visits_end {W : {β : Type} → Stmt S β → Local S → Prop} {E : ρ → Local S → Prop}
    {db : Db S} {p : Tx S ρ} (h : p.Visits W E db .init) :
    ∃ q l, q.Ended ∧ Solo db (p, .init) (q, l) ∧ E (p.run db).1 l := by
  obtain ⟨r, l, hsolo | hsolo⟩ := solo_ends db p .init
  · have hrun : p.run db = (r, l.now.eff db) := exec_of_solo hsolo
    refine ⟨.commit r, l, trivial, hsolo, ?_⟩
    rw [hrun]
    exact visits_solo h hsolo
  · have hrun : p.run db = (r, db) := exec_of_solo hsolo
    refine ⟨.abort r, l, trivial, hsolo, ?_⟩
    rw [hrun]
    exact visits_solo h hsolo

end Sql
