/-
  File:      Eri/Sql/Table.lean
  Subject:   Databases as lists of rows: the data the statements of `Sql/Program.lean` act on.

  A `Schema` names the tables, the type of each table's rows, the primary key of a row and
  the values advisory locks are taken on. A database `Db S` is one list of rows for each
  table, in insertion order. The writes are `insert` (append one row), `update` (SQL's
  `UPDATE … SET … WHERE`: every row that meets the predicate is replaced) and `upsert`.

  * `find?_eq_of_unique`: a lookup finds THE row that meets its predicate, wherever it stands.
-/
import Mathlib.Logic.Function.Basic
import Mathlib.Data.List.Nodup

namespace Sql

/-- The tables of a database, their rows and the keys locks are taken on. -/
structure Schema where
  Table : Type
  Row : Table → Type
  Key : Type
  Advisory : Type
  key : {t : Table} → Row t → Key
  decTable : DecidableEq Table
  decKey : DecidableEq Key
  decAdvisory : DecidableEq Advisory

attribute [instance] Schema.decTable Schema.decKey Schema.decAdvisory

instance Schema.lawfulKey (S : Schema) : LawfulBEq S.Key := inferInstance

variable {S : Schema}

/-- One list of rows for each table, oldest row first. -/
structure Db (S : Schema) where
  rows : (t : S.Table) → List (S.Row t)

/-! ## 1. Writes -/

/-- The empty database: every table as the migrations leave it. -/
def Db.empty : Db S := ⟨fun _ => []⟩

/-- `INSERT INTO t`. -/
def Db.insert (db : Db S) (t : S.Table) (row : S.Row t) : Db S :=
  ⟨Function.update db.rows t (db.rows t ++ [row])⟩

/-- `UPDATE t SET … WHERE p`. -/
def Db.update (db : Db S) (t : S.Table) (p : S.Row t → Bool) (set : S.Row t → S.Row t) : Db S :=
  ⟨Function.update db.rows t ((db.rows t).map fun r => if p r then set r else r)⟩

/-- `INSERT INTO t … ON CONFLICT (primary key) DO UPDATE SET …`. -/
def Db.upsert (db : Db S) (t : S.Table) (row : S.Row t) (set : S.Row t → S.Row t) : Db S :=
  if ∃ r ∈ db.rows t, S.key r = S.key row then
    db.update t (fun r => decide (S.key r = S.key row)) set
  else db.insert t row

@[simp] theorem Db.empty_rows (t : S.Table) : (Db.empty : Db S).rows t = [] := rfl

@[simp] theorem Db.insert_rows_self (db : Db S) (t : S.Table) (row : S.Row t) :
    (db.insert t row).rows t = db.rows t ++ [row] := Function.update_self ..

theorem Db.insert_rows_ne (db : Db S) {t u : S.Table} (row : S.Row t) (h : u ≠ t) :
    (db.insert t row).rows u = db.rows u := Function.update_of_ne h ..

@[simp] theorem Db.update_rows_self (db : Db S) (t : S.Table) (p : S.Row t → Bool)
    (set : S.Row t → S.Row t) :
    (db.update t p set).rows t = (db.rows t).map fun r => if p r then set r else r :=
  Function.update_self ..

theorem Db.update_rows_ne (db : Db S) {t u : S.Table} (p : S.Row t → Bool)
    (set : S.Row t → S.Row t) (h : u ≠ t) : (db.update t p set).rows u = db.rows u :=
  Function.update_of_ne h ..

theorem Db.upsert_rows_ne (db : Db S) {t u : S.Table} (row : S.Row t)
    (set : S.Row t → S.Row t) (h : u ≠ t) : (db.upsert t row set).rows u = db.rows u := by
  unfold Db.upsert
  split
  · exact db.update_rows_ne _ set h
  · exact db.insert_rows_ne row h

theorem Db.ext_rows {a b : Db S} (h : ∀ t, a.rows t = b.rows t) : a = b := by
  cases a
  cases b
  congr
  funext t
  exact h t

/-- An update whose predicate no row meets changes nothing. -/
theorem Db.update_none (db : Db S) (t : S.Table) (p : S.Row t → Bool) (set : S.Row t → S.Row t)
    (h : ∀ r ∈ db.rows t, p r = false) : db.update t p set = db := by
  refine Db.ext_rows fun u => ?_
  by_cases hu : u = t
  · subst hu
    rw [Db.update_rows_self]
    refine (List.map_congr_left fun r hr => ?_).trans (List.map_id _)
    simp [h r hr]
  · exact Db.update_rows_ne db p set hu

/-- Two predicates that agree on the stored rows give the same update. -/
theorem Db.update_congr (db : Db S) (t : S.Table) {p q : S.Row t → Bool}
    (set : S.Row t → S.Row t) (h : ∀ r ∈ db.rows t, p r = q r) :
    db.update t p set = db.update t q set := by
  refine Db.ext_rows fun u => ?_
  by_cases hu : u = t
  · subst hu
    rw [Db.update_rows_self, Db.update_rows_self]
    exact List.map_congr_left fun r hr => by simp only [h r hr]
  · rw [Db.update_rows_ne db p set hu, Db.update_rows_ne db q set hu]

/-- Two updates with the same idempotent expression, by columns it leaves alone, are one. -/
theorem Db.update_update (db : Db S) (t : S.Table) {p q : S.Row t → Bool}
    {set : S.Row t → S.Row t} (hq : ∀ r, q (set r) = q r) (hset : ∀ r, set (set r) = set r) :
    (db.update t p set).update t q set = db.update t (fun r => p r || q r) set := by
  refine Db.ext_rows fun u => ?_
  by_cases hu : u = t
  · subst hu
    simp only [Db.update_rows_self, List.map_map]
    refine List.map_congr_left fun r _ => ?_
    by_cases hp : p r = true
    · by_cases hqr : q r = true
      · simp [hp, hqr, hq, hset]
      · simp [hp, hqr, hq]
    · simp [hp]
  · simp only [Db.update_rows_ne _ _ _ hu]

/-! ## 2. Lookups -/

section Lookup

variable {α : Type} {p : α → Bool}

/-- **A lookup finds THE row that meets its predicate.** -/
theorem find?_eq_of_unique {l : List α} {r : α} (hr : r ∈ l) (hp : p r = true)
    (hu : ∀ r' ∈ l, p r' = true → r' = r) : l.find? p = some r := by
  cases h : l.find? p with
  | none => exact absurd hp (List.find?_eq_none.mp h r hr)
  | some r' => rw [hu r' (List.mem_of_find?_eq_some h) (List.find?_some h)]

end Lookup

end Sql
