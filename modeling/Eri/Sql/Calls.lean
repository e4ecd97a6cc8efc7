/-
  File:      Eri/Sql/Calls.lean
  Subject:   The contract of calls that lock the rows they change.

  * `Calls` -- calls over a `Layout`, with the names each of them draws;
  * `Calls.contract` -- names stay unique, rows pass their checks, locked rows and guarded
    inserts are left to the holder;
  * `allowed_insert`, `allowed_update`, `allowed_upsert` -- what one write has to respect.
-/
import Eri.Sql.Layout

namespace Sql

variable {S : Schema} {Y : Layout S} {C : Type}

/-! ## 1. Calls and their contract -/

/-- The names each call draws for rows of its own. -/
structure Calls (Y : Layout S) (C : Type) where
  draws : C → Y.Name → Prop

namespace Calls

/-- Two calls draw different names. -/
def Apart (X : Calls Y C) (c c' : C) : Prop := ∀ n, X.draws c n → ¬X.draws c' n

/-- A name `c` may store: one it draws, or one that no call draws. -/
def Owns (X : Calls Y C) (c : C) (n : Y.Name) : Prop := X.draws c n ∨ ∀ c', ¬X.draws c' n

/-- No stored row has a name the call draws. -/
def Fresh (X : Calls Y C) (c : C) (db : Db S) : Prop :=
  ∀ t, ∀ r ∈ db.rows t, ∀ n ∈ Y.names r, ¬X.draws c n

/-- **The contract of calls that lock rows.** -/
def contract (X : Calls Y C) : Contract S C where
  compat := X.Apart
  compat_symm h n hb ha := h n ha hb
  inv := Y.Integrity
  fresh := X.Fresh
  rely := Y.Rely
  rely_refl := Layout.Rely.refl
  rely_trans := Layout.Rely.trans
  rely_mono := Layout.Rely.mono

variable (X : Calls Y C) {c : C} {t : S.Table}

/-- What a fresh name is fresh for. -/
theorem Owns.not_drawn {X : Calls Y C} {n : Y.Name} (h : X.Owns c n) {c' : C}
    (ha : X.Apart c c') : ¬X.draws c' n := by
  rcases h with h | h
  · exact ha n h
  · exact h c'

/-! ## 2. What one write has to respect -/

/-- An insert: new names, a row that passes its check, and its guards held. -/
structure InsertOk (X : Calls Y C) (c : C) (held : List (Lock S)) (db : Db S)
    (row : S.Row t) : Prop where
  new : ∀ r ∈ db.rows t, (Y.names r).Disjoint (Y.names row)
  ok : Y.ok (db.insert t row) row
  owns : ∀ n ∈ Y.names row, X.Owns c n
  guard : ∀ k ∈ Y.guard row, k ∈ held

/-- The change of one row by an update: a later version that passes its check, with names of
    its own or new ones. -/
structure UpdateOk (X : Calls Y C) (c : C) (db : Db S) (r r' : S.Row t) : Prop where
  later : Y.later r r'
  ok : Y.ok db r'
  names : ∀ n ∈ Y.names r', n ∈ Y.names r ∨
    (X.Owns c n ∧ ∀ x ∈ db.rows t, n ∉ Y.names x)

theorem allowed_insert {held : List (Lock S)} {db : Db S} {row : S.Row t}
    (hI : Y.Integrity db) (h : InsertOk X c held db row) :
    X.contract.Allowed c held db (db.insert t row) := by
  have hrows : ∀ u, ∀ x ∈ db.rows u, x ∈ (db.insert t row).rows u := by
    intro u x hx
    by_cases hu : u = t
    · subst hu
      rw [Db.insert_rows_self]
      exact List.mem_append_left _ hx
    · rwa [Db.insert_rows_ne db row hu]
  have hcases : ∀ u, ∀ x ∈ (db.insert t row).rows u,
      x ∈ db.rows u ∨ ∃ e : t = u, e ▸ row = x := by
    intro u x hx
    by_cases hu : u = t
    · subst hu
      rw [Db.insert_rows_self] at hx
      rcases List.mem_append.mp hx with hx | hx
      · exact Or.inl hx
      · exact Or.inr ⟨rfl, (List.mem_singleton.mp hx).symm⟩
    · rw [Db.insert_rows_ne db row hu] at hx
      exact Or.inl hx
  refine ⟨fun L hL => ⟨fun u x hx _ => hrows u x hx, fun u => ?_⟩, ⟨fun u => ?_, ?_⟩, ?_⟩
  · by_cases hu : u = t
    · subst hu
      refine ⟨db.rows u, [row], Db.insert_rows_self db u row,
        List.forall₂_same.mpr fun r _ => Y.later_refl r, fun r hr k hk hkL => ?_⟩
      rw [List.mem_singleton] at hr
      subst hr
      exact hL k hkL (h.guard k hk)
    · exact Layout.Grow.of_eq (Db.insert_rows_ne db row hu)
  · by_cases hu : u = t
    · subst hu
      rw [Db.insert_rows_self, List.pairwise_append]
      refine ⟨hI.distinct u, List.pairwise_singleton _ _, fun r hr r' hr' => ?_⟩
      rw [List.mem_singleton] at hr'
      subst hr'
      exact h.new r hr
    · rw [Db.insert_rows_ne db row hu]
      exact hI.distinct u
  · intro u x hx
    rcases hcases u x hx with hx | ⟨rfl, rfl⟩
    · exact Y.ok_mono (fun u x hx => ⟨x, hrows u x hx, Y.later_refl x⟩) (hI.ok u x hx)
    · exact h.ok
  · intro c' hc hf u x hx n hn
    rcases hcases u x hx with hx | ⟨rfl, rfl⟩
    · exact hf u x hx n hn
    · exact (h.owns n hn).not_drawn hc

theorem allowed_update {held : List (Lock S)} {db : Db S} {p : S.Row t → Bool}
    {set : S.Row t → S.Row t} (hI : Y.Integrity db)
    (hk : ∀ r ∈ db.rows t, p r = true → Lock.row t (S.key r) ∈ held)
    (h : ∀ r ∈ db.rows t, p r = true → UpdateOk X c db r (set r))
    (hone : (∀ r ∈ db.rows t, p r = true → ∀ n ∈ Y.names (set r), n ∈ Y.names r) ∨
      ∀ r ∈ db.rows t, ∀ r' ∈ db.rows t, p r = true → p r' = true → r = r') :
    X.contract.Allowed c held db (db.update t p set) := by
  have hlater : ∀ r ∈ db.rows t, Y.later r (if p r then set r else r) := by
    intro r hr
    split
    · rename_i hp
      exact (h r hr hp).later
    · exact Y.later_refl r
  have hgrow : ∀ L u, Y.Grow L u db (db.update t p set) := by
    intro L u
    by_cases hu : u = t
    · subst hu
      refine ⟨(db.rows u).map fun r => if p r then set r else r, [], ?_, ?_, fun r hr => ?_⟩
      · rw [Db.update_rows_self, List.append_nil]
      · rw [List.forall₂_map_right_iff]
        exact List.forall₂_same.mpr hlater
      · cases hr
    · exact Layout.Grow.of_eq (Db.update_rows_ne db p set hu)
  have hstill : ∀ L, (∀ k ∈ L, k ∉ held) → Y.Rely L db (db.update t p set) := by
    refine fun L hL => ⟨fun u r hr hkL => ?_, hgrow L⟩
    by_cases hu : u = t
    · subst hu
      rw [Db.update_rows_self]
      refine List.mem_map.mpr ⟨r, hr, if_neg fun hp => ?_⟩
      exact hL _ hkL (hk r hr hp)
    · rwa [Db.update_rows_ne db p set hu]
  have hmono : ∀ u, ∀ x ∈ db.rows u, ∃ x' ∈ (db.update t p set).rows u, Y.later x x' :=
    fun u x hx => Layout.Rely.later (L := []) ⟨fun _ _ _ h => (by cases h), hgrow []⟩ hx
  refine ⟨hstill, ⟨fun u => ?_, fun u x hx => ?_⟩, fun c' hc hf u x hx n hn => ?_⟩
  · by_cases hu : u = t
    · subst hu
      rw [Db.update_rows_self, List.pairwise_map]
      refine (hI.distinct u).imp_of_mem fun {x y} hx hy hxy n hn hn' => ?_
      -- a shared name would be shared before, or stored before, or be drawn for one row
      have hold : ∀ z ∈ db.rows u, n ∈ Y.names (if p z then set z else z) →
          n ∈ Y.names z ∨ (p z = true ∧ n ∈ Y.names (set z) ∧ ∀ x ∈ db.rows u,
            n ∉ Y.names x) := by
        intro z hz hnz
        split at hnz
        · rename_i hp
          rcases (h z hz hp).names n hnz with hnz' | hnew
          · exact Or.inl hnz'
          · exact Or.inr ⟨hp, hnz, hnew.2⟩
        · exact Or.inl hnz
      rcases hold x hx hn with hnx | ⟨hpx, hsx, hnew⟩
      · rcases hold y hy hn' with hny | ⟨_, _, hnew⟩
        · exact hxy hnx hny
        · exact hnew x hx hnx
      · rcases hold y hy hn' with hny | ⟨hpy, _, _⟩
        · exact hnew y hy hny
        · rcases hone with hone | hone
          · exact hnew x hx (hone x hx hpx n hsx)
          · have e := hone x hx y hy hpx hpy
            subst e
            obtain ⟨n', hn', hn''⟩ := Y.keyed (rfl : S.key x = S.key x)
            exact hxy hn' hn''
    · rw [Db.update_rows_ne db p set hu]
      exact hI.distinct u
  · by_cases hu : u = t
    · subst hu
      rw [Db.update_rows_self] at hx
      obtain ⟨r, hr, rfl⟩ := List.mem_map.mp hx
      split
      · rename_i hp
        exact Y.ok_mono hmono (h r hr hp).ok
      · exact Y.ok_mono hmono (hI.ok u r hr)
    · rw [Db.update_rows_ne db p set hu] at hx
      exact Y.ok_mono hmono (hI.ok u x hx)
  · by_cases hu : u = t
    · subst hu
      rw [Db.update_rows_self] at hx
      obtain ⟨r, hr, rfl⟩ := List.mem_map.mp hx
      split at hn
      · rename_i hp
        rcases (h r hr hp).names n hn with hn | hnew
        · exact hf u r hr n hn
        · exact hnew.1.not_drawn hc
      · exact hf u r hr n hn
    · rw [Db.update_rows_ne db p set hu] at hx
      exact hf u x hx n hn

theorem allowed_upsert {held : List (Lock S)} {db : Db S} {row : S.Row t}
    {set : S.Row t → S.Row t} (hI : Y.Integrity db)
    (hk : Lock.row t (S.key row) ∈ held)
    (hset : ∀ r ∈ db.rows t, S.key r = S.key row → UpdateOk X c db r (set r))
    (hins : (∀ r ∈ db.rows t, S.key r ≠ S.key row) → InsertOk X c held db row) :
    X.contract.Allowed c held db (db.upsert t row set) := by
  unfold Db.upsert
  split
  · refine allowed_update X hI (fun r _ hr => ?_) (fun r hr hp => hset r hr (by simpa using hp))
      (Or.inr fun r hr r' hr' hp hp' => ?_)
    · rwa [of_decide_eq_true hr]
    · exact hI.key_inj hr hr' ((of_decide_eq_true hp).trans (of_decide_eq_true hp').symm)
  · rename_i hno
    exact allowed_insert X hI (hins fun r hr hk => hno ⟨r, hr, hk⟩)

end Calls

end Sql
