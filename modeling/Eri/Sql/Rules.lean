/-
  File:      Eri/Sql/Rules.lean
  Subject:   Keeping to the contract of row locks, one rule for each step of a program.

  A rule reads from the bottom up: the goal `(step k).Sound …` becomes the obligations of what
  follows, `(k a).Sound …`, with what the answer `a` says about the committed rows, and what
  this step itself has to respect. A step after which the outcome is settled has no
  obligations (`sound_settled`): nothing it still does depends on the rows.
-/
import Eri.Sql.Calls

namespace Sql

variable {S : Schema} {Y : Layout S} {C ρ α : Type}

/-! ## 1. Knowing more -/

/-- The same savepoint with more known there. -/
def Mark.Le (D : Contract S C) (c : C) (m' m : Option (Mark S ρ)) : Prop :=
  ∀ m₀, m = some m₀ → ∃ K', m' = some { m₀ with known := K' } ∧
    ∀ d, D.Good c d → K' d → m₀.known d

theorem Mark.Le.refl (D : Contract S C) (c : C) (m : Option (Mark S ρ)) : Mark.Le D c m m :=
  fun m₀ e => ⟨m₀.known, e, fun _ _ h => h⟩

/-- **A program that is sound knowing little is sound knowing more.** -/
theorem sound_mono {D : Contract S C} {c : C} : ∀ (p : Tx S ρ) {m m' : Option (Mark S ρ)}
    {K K' : Db S → Prop} {l : Local S}, Mark.Le D c m' m →
    (∀ d, D.Good c d → K' d → K d) → p.Sound D c m K l → p.Sound D c m' K' l := by
  intro p
  induction p with
  | commit r => exact fun _ _ _ => trivial
  | abort r => exact fun _ _ _ => trivial
  | stmt s k ih =>
      intro m m' K K' l hm hK h db hi hKdb hI
      refine (h db hi (hK db hi hKdb) hI).imp id fun h' => ?_
      split at h'
      · rename_i hroll
        rw [if_pos hroll]
        obtain ⟨m₀, e, hheld, heff, hagain, hrest⟩ := h'
        obtain ⟨K₀, e', hK₀⟩ := hm m₀ e
        exact ⟨_, e', hheld, heff, fun d hd hKd => hagain d hd (hK₀ d hd hKd),
          ih _ (Mark.Le.refl D c none) hK₀ hrest⟩
      · rename_i hroll
        rw [if_neg hroll]
        obtain ⟨hg, hkeep, hrest⟩ := h'
        refine ⟨hg, fun d hd hKd => hkeep d hd (hK d hd hKd), ih _ ?_ ?_ hrest⟩
        · cases s with
          | savepoint =>
              intro m₀ e
              cases e
              exact ⟨K', rfl, hK⟩
          | releaseSavepoint =>
              intro m₀ e
              cases e
          | _ => exact hm
        · exact fun d hd hKd => ⟨hK d hd hKd.1, hKd.2⟩

theorem sound_weaken {D : Contract S C} {c : C} {p : Tx S ρ} {m : Option (Mark S ρ)}
    {K K' : Db S → Prop} {l : Local S} (hK : ∀ d, K' d → K d) (h : p.Sound D c m K l) :
    p.Sound D c m K' l :=
  sound_mono p (Mark.Le.refl D c m) (fun d _ => hK d) h

/-! ## 2. Other return values -/

section Map

variable {ρ' : Type} (f : ρ → ρ')

theorem outcome_map (p : Tx S ρ) (l : Local S) :
    outcome (p.map f, l) = (outcome (p, l)).map f := by
  cases p with
  | commit r =>
      simp only [Tx.map, outcome]
      split <;> rfl
  | abort r => rfl
  | stmt s k => rfl

theorem solo_map {db : Db S} {a b : Tx S ρ × Local S} (h : Solo db a b) :
    Solo db (a.1.map f, a.2) (b.1.map f, b.2) := by
  induction h with
  | refl => exact .refl
  | tail _ hs ih =>
      cases hs with
      | stmt s k l => exact ih.tail (.stmt s (fun b => (k b).map f) l)

def Mark.map (m : Mark S ρ) : Mark S ρ' := ⟨m.prog.map f, m.loc, m.known⟩

/-- **A sound program stays sound with its value wrapped.** -/
theorem sound_map {D : Contract S C} {c : C} : ∀ (p : Tx S ρ) {m : Option (Mark S ρ)}
    {K : Db S → Prop} {l : Local S}, p.Sound D c m K l →
    (p.map f).Sound D c (m.map (Mark.map f)) K l := by
  intro p
  induction p with
  | commit r => exact fun _ => trivial
  | abort r => exact fun _ => trivial
  | stmt s k ih =>
      intro m K l h db hi hK hI
      have h' := h db hi hK hI
      rw [outcome_map, Option.isSome_map]
      refine h'.imp id fun h' => ?_
      split at h'
      · rename_i hroll
        rw [if_pos hroll]
        obtain ⟨m₀, e, hheld, heff, hagain, hrest⟩ := h'
        exact ⟨m₀.map f, by rw [e]; rfl, hheld, heff,
          fun d hd hKd => solo_map f (hagain d hd hKd), ih _ hrest⟩
      · rename_i hroll
        rw [if_neg hroll]
        obtain ⟨hg, hkeep, hrest⟩ := h'
        refine ⟨hg, hkeep, ?_⟩
        have hr := ih _ hrest
        cases s <;> exact hr

end Map

section Rules

variable {X : Calls Y C} {c : C} {m : Option (Mark S ρ)} {K : Db S → Prop} {l : Local S}
  {t : S.Table}

/-- What a call finds at a statement: good committed rows that it knows `K` of, and rows of
    its own view with their integrity. -/
structure Finds (X : Calls Y C) (c : C) (K : Db S → Prop) (l : Local S) (d : Db S) : Prop where
  good : X.contract.Good c d
  known : K d
  view : Y.Integrity (l.now.eff d)

theorem Finds.inv {d : Db S} (h : Finds X c K l d) : Y.Integrity d := h.good.inv

theorem Finds.fresh {d : Db S} (h : Finds X c K l d) {r : S.Row t} (hr : r ∈ d.rows t)
    {n : Y.Name} (hn : X.draws c n) : n ∉ Y.names r :=
  fun hnr => h.good.fresh t r hr n hnr hn

/-! ## 3. Steps that do not touch the rows -/

theorem sound_commit (r : ρ) (k : α → Tx S ρ) :
    (commit r k).Sound X.contract c m K l := trivial

theorem sound_ensure {q : Prop} [Decidable q] {r : ρ} {k : Unit → Tx S ρ}
    (h : q → (k ()).Sound X.contract c m K l) :
    (ensure q r k).Sound X.contract c m K l := by
  unfold ensure
  split
  · rename_i hq
    exact h hq
  · trivial

theorem sound_checked {ε : Type} {x : Except ε α} {r : ε → ρ} {k : α → Tx S ρ}
    (h : ∀ a, x = .ok a → (k a).Sound X.contract c m K l) :
    (checked x r k).Sound X.contract c m K l := by
  cases x with
  | ok a => exact h a rfl
  | error e => trivial

/-- **A statement whose answer settles the outcome has no obligations.** -/
theorem sound_settled {β : Type} {s : Stmt S β} {k : β → Tx S ρ}
    (h : ∀ db, (outcome (k (s.step db l).1, (s.step db l).2)).isSome = true) :
    (Tx.stmt s k).Sound X.contract c m K l := fun db _ _ _ => Or.inl (h db)

/-! ## 4. Reads -/

/-- A read whose answer other commits do not change. -/
theorem sound_select {q : Db S → α} {k : α → Tx S ρ}
    (hq : ∀ db d, Finds X c K l db → X.contract.Good c d → K d → Y.Rely l.now.held db d →
      q (l.now.eff d) = q (l.now.eff db))
    (hk : ∀ db, Finds X c K l db → (k (q (l.now.eff db))).Sound X.contract c m
      (fun d => K d ∧ q (l.now.eff d) = q (l.now.eff db)) l) :
    (select q k).Sound X.contract c m K l := by
  intro db hi hK hI
  refine Or.inr ⟨Contract.Allowed.refl hI, fun d hd hKd hr => ?_, ?_⟩
  · exact congrArg (·, l) (hq db d ⟨hi, hK, hI⟩ hd hKd hr)
  · refine sound_weaken (fun d h => ⟨h.1, ?_⟩) (hk db ⟨hi, hK, hI⟩)
    exact congrArg Prod.fst h.2

/-- A read of one row whose answer other commits do not change, once there is one. -/
theorem sound_selectOr {q : Db S → Option α} {r : ρ} {k : α → Tx S ρ}
    (hq : ∀ db d a, Finds X c K l db → X.contract.Good c d → K d →
      Y.Rely l.now.held db d → q (l.now.eff db) = some a → q (l.now.eff d) = some a)
    (hk : ∀ db a, Finds X c K l db → q (l.now.eff db) = some a →
      (k a).Sound X.contract c m (fun d => K d ∧ q (l.now.eff d) = some a) l) :
    (selectOr q r k).Sound X.contract c m K l := by
  intro db hi hK hI
  simp only [Stmt.step]
  cases ha : q (l.now.eff db) with
  | none => exact Or.inl rfl
  | some a =>
      refine Or.inr ⟨Contract.Allowed.refl hI, fun d hd hKd hr => ?_, ?_⟩
      · show (q _, l) = (q _, l)
        rw [ha, hq db d a ⟨hi, hK, hI⟩ hd hKd hr ha]
      · refine sound_weaken (fun d h => ⟨h.1, ?_⟩) (hk db a ⟨hi, hK, hI⟩ ha)
        exact congrArg Prod.fst h.2

/-- A read that either settles the outcome or whose answer other commits do not change. -/
theorem sound_selectWhen {q : Db S → α} {k : α → Tx S ρ}
    (h : ∀ db, Finds X c K l db → (outcome (k (q (l.now.eff db)), l)).isSome = true ∨
      (∀ d, X.contract.Good c d → K d → Y.Rely l.now.held db d →
        q (l.now.eff d) = q (l.now.eff db)) ∧
      (k (q (l.now.eff db))).Sound X.contract c m
        (fun d => K d ∧ q (l.now.eff d) = q (l.now.eff db)) l) :
    (select q k).Sound X.contract c m K l := by
  intro db hi hK hI
  rcases h db ⟨hi, hK, hI⟩ with hset | ⟨hq, hk⟩
  · exact Or.inl hset
  · refine Or.inr ⟨Contract.Allowed.refl hI, fun d hd hKd hr => ?_, ?_⟩
    · exact congrArg (·, l) (hq d hd hKd hr)
    · refine sound_weaken (fun d h => ⟨h.1, ?_⟩) hk
      exact congrArg Prod.fst h.2

/-- The last read of a call. -/
theorem sound_selectOr_last {q : Db S → Option α} {r : ρ} {k : α → Tx S ρ}
    (h : ∀ a, (outcome (k a, l)).isSome = true) :
    (selectOr q r k).Sound X.contract c m K l := by
  refine sound_settled fun db => ?_
  simp only [Stmt.step]
  cases q (l.now.eff db) with
  | none => rfl
  | some a => exact h a

/-- **A row locked by a name of its own stays as it was read.** -/
theorem sound_lockOr {p : S.Row t → Bool} {r : ρ} {k : S.Row t → Tx S ρ} (n : Y.Name)
    (hn : ∀ r, p r = true → n ∈ Y.names r)
    (hclean : ∀ d, (l.now.eff d).rows t = d.rows t)
    (hk : ∀ db row, Finds X c K l db → row ∈ db.rows t → p row = true →
      (k row).Sound X.contract c m (fun d => K d ∧ row ∈ d.rows t)
        (l.lock [.row t (S.key row)])) :
    (lockOr t p r k).Sound X.contract c m K l := by
  intro db hi hK hI
  cases ha : (db.rows t).find? p with
  | none =>
      left
      simp only [Stmt.step, hclean, ha]
      rfl
  | some row =>
      have hmem := List.mem_of_find?_eq_some ha
      have hstep : ∀ d, (d.rows t).find? p = some row →
          (Stmt.selectForUpdate t p).step d l = (some row, l.lock [.row t (S.key row)]) := by
        intro d hd
        simp only [Stmt.step, hclean, hd]
      have hback : ∀ d, (Stmt.selectForUpdate t p).step d l =
          (some row, l.lock [.row t (S.key row)]) → row ∈ d.rows t := by
        intro d hd
        simp only [Stmt.step, hclean] at hd
        cases e : (d.rows t).find? p with
        | none => rw [e] at hd; cases hd
        | some row' =>
            rw [e] at hd
            cases hd
            exact List.mem_of_find?_eq_some e
      right
      unfold Stmt.Guarantee Stmt.Keeps
      rw [hstep db ha, if_neg (by simp [Stmt.isRollback])]
      refine ⟨Contract.Allowed.refl hI, fun d hd hKd hr => ?_, ?_⟩
      · exact hstep d (Layout.rely_find_held hd.inv hr hn ha List.mem_cons_self)
      · exact sound_weaken (fun d h => ⟨h.1, hback d h.2⟩)
          (hk db row ⟨hi, hK, hI⟩ hmem (List.find?_some ha))

theorem sound_advisoryLock {a : S.Advisory} {k : Unit → Tx S ρ}
    (hk : (k ()).Sound X.contract c m K (l.lock [.advisory a])) :
    (advisoryLock a k).Sound X.contract c m K l := by
  intro db hi hK hI
  refine Or.inr ⟨Contract.Allowed.refl hI, fun _ _ _ _ => rfl, ?_⟩
  exact sound_weaken (fun d h => h.1) hk

/-! ## 5. Writes -/

/-- An insert of a row that other commits do not change. -/
theorem sound_insert {row : Db S → S.Row t} {k : S.Row t → Tx S ρ}
    (hrow : ∀ db d, Finds X c K l db → X.contract.Good c d → K d →
      Y.Rely l.now.held db d → row (l.now.eff d) = row (l.now.eff db))
    (hw : ∀ db, Finds X c K l db →
      Calls.InsertOk X c l.now.held (l.now.eff db) (row (l.now.eff db)))
    (hk : ∀ db, Finds X c K l db → (k (row (l.now.eff db))).Sound X.contract c m K
      ((l.lock [.row t (S.key (row (l.now.eff db)))]).write
        fun d => d.insert t (row (l.now.eff db)))) :
    (insert t row k).Sound X.contract c m K l := by
  intro db hi hK hI
  have hf : Finds X c K l db := ⟨hi, hK, hI⟩
  obtain ⟨hnew, hok, howns, hguard⟩ := hw db hf
  refine Or.inr ⟨?_, fun d hd hKd hr => ?_, ?_⟩
  · exact Calls.allowed_insert X hI ⟨hnew, hok, howns,
      fun k hk => List.mem_cons_of_mem _ (hguard k hk)⟩
  · have e := hrow db d hf hd hKd (Layout.Rely.mono (List.subset_cons_self ..) hr)
    simp only [Stmt.step, e]
  · exact sound_weaken (fun d h => h.1) (hk db hf)

/-- The transaction after an `UPDATE` of the rows with the given keys. -/
def Local.updated (l : Local S) (t : S.Table) (p : S.Row t → Bool) (set : S.Row t → S.Row t)
    (keys : List S.Key) : Local S :=
  if keys = [] then l else
    (l.lock (keys.map (Lock.row t))).write
      fun d => d.update t (fun r => p r && decide (S.key r ∈ keys)) set

theorem step_update (p : S.Row t → Bool) (set : S.Row t → S.Row t) (d : Db S) :
    (Stmt.update t p set).step d l =
      ((l.hit d t p).map set, l.updated t p set ((l.hit d t p).map S.key)) := by
  simp only [Stmt.step, Local.updated]
  split
  · rename_i h
    rw [List.map_eq_nil_iff.mp h, List.map_nil]
  · rfl

/-- An `UPDATE` keeps to the contract when each change it makes does. -/
theorem allowed_step_update {p : S.Row t → Bool} {set : S.Row t → S.Row t} {db : Db S}
    (hI : Y.Integrity (l.now.eff db))
    (hw : ∀ r ∈ l.hit db t p, Calls.UpdateOk X c (l.now.eff db) r (set r))
    (hone : (∀ r ∈ l.hit db t p, ∀ n ∈ Y.names (set r), n ∈ Y.names r) ∨
      ∃ row, l.hit db t p = [row]) :
    (Stmt.update t p set).Guarantee X.contract c db l := by
  unfold Stmt.Guarantee
  rw [step_update]
  simp only [Local.updated]
  split
  · exact Contract.Allowed.refl hI
  · have hmem : ∀ r ∈ (l.now.eff db).rows t, p r = true → r ∈ l.hit db t p :=
      fun r hr hpr => List.mem_filter.mpr ⟨hr, hpr⟩
    have heq : (l.now.eff db).update t
        (fun r => p r && decide (S.key r ∈ (l.hit db t p).map S.key)) set =
        (l.now.eff db).update t p set := by
      refine Db.update_congr _ t set fun r hr => ?_
      cases hpr : p r with
      | false => rfl
      | true => simpa using ⟨r, hmem r hr hpr, rfl⟩
    show X.contract.Allowed c _ _ ((l.now.eff db).update t _ set)
    rw [heq]
    refine Calls.allowed_update X hI (fun r hr hpr => ?_)
      (fun r hr hpr => hw r (hmem r hr hpr)) ?_
    · exact List.mem_append_left _ (List.mem_map_of_mem (List.mem_map_of_mem (hmem r hr hpr)))
    · refine hone.imp (fun h r hr hpr => h r (hmem r hr hpr)) ?_
      rintro ⟨row, h⟩ r hr r' hr' hpr hpr'
      have e := hmem r hr hpr
      have e' := hmem r' hr' hpr'
      rw [h, List.mem_singleton] at e e'
      rw [e, e']

/-- **An update of a row known to be there.** -/
theorem sound_update_row {p : S.Row t → Bool} {set : S.Row t → S.Row t}
    {k : List (S.Row t) → Tx S ρ} (row : S.Row t)
    (hhit : ∀ d, X.contract.Good c d → K d → l.hit d t p = [row])
    (hw : ∀ db, Finds X c K l db → Calls.UpdateOk X c (l.now.eff db) row (set row))
    (hk : (k [set row]).Sound X.contract c m K (l.updated t p set [S.key row])) :
    (update t p set k).Sound X.contract c m K l := by
  intro db hi hK hI
  have hstep : ∀ d, X.contract.Good c d → K d →
      (Stmt.update t p set).step d l = ([set row], l.updated t p set [S.key row]) := by
    intro d hd hKd
    rw [step_update, hhit d hd hKd]
    rfl
  right
  rw [if_neg (by simp [Stmt.isRollback])]
  refine ⟨allowed_step_update hI (fun r hr => ?_) (Or.inr ⟨row, hhit db hi hK⟩),
    fun d hd hKd _ => ?_, ?_⟩
  · rw [hhit db hi hK, List.mem_singleton] at hr
    subst hr
    exact hw db ⟨hi, hK, hI⟩
  · rw [hstep d hd hKd, hstep db hi hK]
  · rw [hstep db hi hK]
    exact sound_weaken (fun d h => h.1) hk

/-- An update by a name of its own, after which a call that met no row has nothing to do. -/
theorem sound_update_found {p : S.Row t → Bool} {set : S.Row t → S.Row t}
    {k : List (S.Row t) → Tx S ρ} (n : Y.Name) (hn : ∀ r, p r = true → n ∈ Y.names r)
    (hclean : ∀ d, (l.now.eff d).rows t = d.rows t)
    (hnil : (outcome (k [], l)).isSome = true)
    (hw : ∀ db row, Finds X c K l db → row ∈ db.rows t → p row = true →
      Calls.UpdateOk X c (l.now.eff db) row (set row))
    (hk : ∀ row, p row = true →
      (k [set row]).Sound X.contract c m K (l.updated t p set [S.key row])) :
    (update t p set k).Sound X.contract c m K l := by
  intro db hi hK hI
  have hhit : ∀ d, l.hit d t p = (d.rows t).filter p := fun d => by
    unfold Local.hit
    rw [hclean]
  cases ha : (db.rows t).find? p with
  | none =>
      left
      rw [step_update, hhit, List.filter_eq_nil_iff.mpr (List.find?_eq_none.mp ha)]
      exact hnil
  | some row =>
      have hmem := List.mem_of_find?_eq_some ha
      have hp := List.find?_some ha
      have hone := hi.inv.filter hn hmem hp
      right
      rw [if_neg (by simp [Stmt.isRollback])]
      refine ⟨allowed_step_update hI (fun r hr => ?_) (Or.inr ⟨row, (hhit db).trans hone⟩),
        fun d hd hKd hr => ?_, ?_⟩
      · rw [hhit, hone, List.mem_singleton] at hr
        subst hr
        exact hw db r ⟨hi, hK, hI⟩ hmem hp
      · rw [step_update, hhit, hone] at hr
        have hlock : Lock.row t (S.key row) ∈ (l.updated t p set [S.key row]).now.held := by
          simp [Local.updated]
        have hd' := hd.inv.filter hn (hr.held t row hmem hlock) hp
        rw [step_update, step_update, hhit, hhit, hone, hd']
      · rw [step_update, hhit, hone]
        exact sound_weaken (fun d h => h.1) (hk row hp)

/-- An update by columns that never change and that a held lock guards. -/
theorem sound_update_guarded {p : S.Row t → Bool} {set : S.Row t → S.Row t}
    {k : List (S.Row t) → Tx S ρ} (hp : ∀ r r', Y.later r r' → p r' = p r)
    (hg : ∀ d, X.contract.Good c d → K d → ∀ r ∈ d.rows t, p r = true →
      ∃ k ∈ Y.guard r, k ∈ l.now.held)
    (hclean : ∀ d, l.hit d t p = (d.rows t).filter p)
    (hw : ∀ db r, Finds X c K l db → r ∈ l.hit db t p →
      Calls.UpdateOk X c (l.now.eff db) r (set r) ∧
        ∀ n ∈ Y.names (set r), n ∈ Y.names r)
    (hk : ∀ db, Finds X c K l db → (k ((l.hit db t p).map set)).Sound X.contract c m K
      (l.updated t p set ((l.hit db t p).map S.key))) :
    (update t p set k).Sound X.contract c m K l := by
  intro db hi hK hI
  have hf : Finds X c K l db := ⟨hi, hK, hI⟩
  right
  rw [if_neg (by simp [Stmt.isRollback])]
  refine ⟨allowed_step_update hI (fun r hr => (hw db r hf hr).1)
    (Or.inl fun r hr => (hw db r hf hr).2), fun d hd hKd hr => ?_, ?_⟩
  · rw [step_update] at hr
    have hsub : l.now.held ⊆ (l.updated t p set ((l.hit db t p).map S.key)).now.held := by
      unfold Local.updated
      split
      · exact List.Subset.refl _
      · exact List.subset_append_right ..
    have hlock : ∀ r ∈ (db.rows t).filter p, Lock.row t (S.key r) ∈
        (l.updated t p set ((l.hit db t p).map S.key)).now.held := by
      intro r hr
      rw [← hclean] at hr
      unfold Local.updated
      split
      · rename_i h
        rw [List.map_eq_nil_iff.mp h] at hr
        cases hr
      · exact List.mem_append_left _ (List.mem_map_of_mem (List.mem_map_of_mem hr))
    have hsame : (d.rows t).filter p = (db.rows t).filter p :=
      Layout.rely_filter_held hd.inv hr hp (fun r hrd hpr => by
        obtain ⟨k, hk, hkL⟩ := hg d hd hKd r hrd hpr
        exact ⟨k, hk, hsub hkL⟩) hlock
    rw [step_update, step_update, hclean, hclean, hsame]
  · rw [step_update]
    exact sound_weaken (fun d h => h.1) (hk db hf)

/-- A filter does not see an update of rows it leaves out, before and after. -/
theorem filter_update_of_not {d : Db S} {p q : S.Row t → Bool} {set : S.Row t → S.Row t}
    (h : ∀ r, p r = true → q r = false ∧ q (set r) = false) :
    ((d.update t p set).rows t).filter q = (d.rows t).filter q := by
  rw [Db.update_rows_self]
  induction d.rows t with
  | nil => rfl
  | cons r rows ih =>
      rw [List.map_cons, List.filter_cons, List.filter_cons, ih]
      split
      · rename_i hr
        obtain ⟨h₁, h₂⟩ := h r hr
        rw [h₁, h₂, if_neg Bool.false_ne_true, if_neg Bool.false_ne_true]
      · rfl

/-- Row after row, with the keys fixed by the statement's snapshot. -/
theorem sound_updateKeys {p : S.Row t → Bool} {set : S.Row t → S.Row t}
    (hp : ∀ r r', Y.later r r' → p r' = p r) (hset : ∀ r, S.key (set r) = S.key r)
    (hw : ∀ db r, p r = true → Y.ok db r → Calls.UpdateOk X c db r (set r) ∧
      ∀ n ∈ Y.names (set r), n ∈ Y.names r) {k : Unit → Tx S ρ}
    (hk : ∀ l', (k ()).Sound X.contract c m K l') :
    ∀ (ks : List S.Key) (l : Local S), ks.Nodup →
      (∀ d, X.contract.Good c d → K d → ∀ r ∈ d.rows t, p r = true →
        ∃ k ∈ Y.guard r, k ∈ l.now.held) →
      (∀ d, ∀ k ∈ ks, l.hit d t (fun r => p r && decide (S.key r = k)) =
        (d.rows t).filter fun r => p r && decide (S.key r = k)) →
      (updateKeys t p set ks k).Sound X.contract c m K l := by
  intro ks
  induction ks with
  | nil => exact fun l _ _ _ => hk l
  | cons key ks ih =>
      intro l hnodup hg hclean
      have hkey : ∀ r r', Y.later r r' →
          (p r' && decide (S.key r' = key)) = (p r && decide (S.key r = key)) :=
        fun r r' h => by rw [hp r r' h, Y.later_key h]
      have hpk : ∀ {r}, (p r && decide (S.key r = key)) = true → p r = true ∧ S.key r = key :=
        fun h => by simpa using h
      refine sound_update_guarded hkey (fun d hd hKd r hrd hr => hg d hd hKd r hrd (hpk hr).1)
        (fun d => hclean d key List.mem_cons_self) (fun db r hf hr => ?_) fun db hf => ?_
      · obtain ⟨hr, hpr⟩ := List.mem_filter.mp hr
        exact hw _ r (hpk hpr).1 (hf.view.ok t r hr)
      · refine ih _ (List.nodup_cons.mp hnodup).2 (fun d hd hKd r hrd hr => ?_) fun d k' hk' => ?_
        · obtain ⟨g, hgr, hgh⟩ := hg d hd hKd r hrd hr
          refine ⟨g, hgr, ?_⟩
          unfold Local.updated
          split
          · exact hgh
          · exact List.mem_append_right _ hgh
        · rw [← hclean d k' (List.mem_cons_of_mem _ hk')]
          unfold Local.updated
          split
          · rfl
          · have hne : key ≠ k' := fun e => (List.nodup_cons.mp hnodup).1 (e ▸ hk')
            refine filter_update_of_not fun r hr => ?_
            simp only [Bool.and_eq_true, decide_eq_true_eq] at hr
            simp only [hset, hr.1.2, hne, decide_false, Bool.and_false, and_self]

/-- **An update of many rows**, guarded by a held lock. -/
theorem sound_updateEach {p : S.Row t → Bool} {set : S.Row t → S.Row t}
    {scan : List S.Key → List S.Key} (hp : ∀ r r', Y.later r r' → p r' = p r)
    (hset : ∀ r, S.key (set r) = S.key r) (hscan : ∀ ks, (scan ks).Perm ks)
    (hg : ∀ d, X.contract.Good c d → K d → ∀ r ∈ d.rows t, p r = true →
      ∃ k ∈ Y.guard r, k ∈ l.now.held)
    (hclean : ∀ d, (l.now.eff d).rows t = d.rows t)
    (hw : ∀ db r, p r = true → Y.ok db r → Calls.UpdateOk X c db r (set r) ∧
      ∀ n ∈ Y.names (set r), n ∈ Y.names r) {k : Unit → Tx S ρ}
    (hk : ∀ l', (k ()).Sound X.contract c m K l') :
    (updateEach t p set scan k).Sound X.contract c m K l := by
  unfold updateEach
  refine sound_select (fun db d _ hd hKd hr => ?_) fun db hf => ?_
  · rw [hclean, hclean]
    exact Layout.rely_filter_keys hr hp (hg d hd hKd)
  · refine sound_weaken (fun d h => h.1) (sound_updateKeys hp hset hw hk _ l ?_ hg ?_)
    · rw [hclean, (hscan _).nodup_iff]
      refine List.Pairwise.map _ (fun {x y} hxy e => ?_) ((hf.inv.distinct t).filter _)
      obtain ⟨n, hn, hn'⟩ := Y.keyed e
      exact hxy hn hn'
    · intro d k _
      unfold Local.hit
      rw [hclean]

theorem sound_upsert {row : S.Row t} {set : S.Row t → S.Row t} {k : Unit → Tx S ρ}
    (hset : ∀ db r, Finds X c K l db → r ∈ (l.now.eff db).rows t → S.key r = S.key row →
      Calls.UpdateOk X c (l.now.eff db) r (set r))
    (hins : ∀ db, Finds X c K l db → (∀ r ∈ (l.now.eff db).rows t, S.key r ≠ S.key row) →
      Calls.InsertOk X c l.now.held (l.now.eff db) row)
    (hk : (k ()).Sound X.contract c m K
      ((l.lock [.row t (S.key row)]).write fun d => d.upsert t row set)) :
    (upsert t row set k).Sound X.contract c m K l := by
  intro db hi hK hI
  have hf : Finds X c K l db := ⟨hi, hK, hI⟩
  refine Or.inr ⟨?_, fun d _ _ _ => rfl, sound_weaken (fun d h => h.1) hk⟩
  refine Calls.allowed_upsert X hI List.mem_cons_self (fun r hr hkr => hset db r hf hr hkr)
    fun hno => ?_
  obtain ⟨hnew, hok, howns, hguard⟩ := hins db hf hno
  exact ⟨hnew, hok, howns, fun k hk => List.mem_cons_of_mem _ (hguard k hk)⟩

/-! ## 6. Savepoints -/

theorem sound_savepoint {k : Unit → Tx S ρ}
    (hk : (k ()).Sound X.contract c (some ⟨.stmt .savepoint k, l, K⟩) K
      { l with saved := l.now :: l.saved }) :
    (savepoint k).Sound X.contract c m K l := by
  intro db hi hK hI
  refine Or.inr ⟨Contract.Allowed.refl hI, fun _ _ _ _ => rfl, ?_⟩
  exact sound_weaken (fun d h => h.1) hk

theorem sound_releaseSavepoint {k : Unit → Tx S ρ}
    (hk : (k ()).Sound X.contract c none K { l with saved := l.saved.tail }) :
    (releaseSavepoint k).Sound X.contract c m K l := by
  intro db hi hK hI
  refine Or.inr ⟨Contract.Allowed.refl hI, fun _ _ _ _ => rfl, ?_⟩
  exact sound_weaken (fun d h => h.1) hk

/-- **A rollback to the savepoint**, from which the call can get here again whatever the other
    calls commit once the locks taken since are given back. -/
theorem sound_rollbackToSavepoint {k : Unit → Tx S ρ} {f : Frame S} {fs : List (Frame S)}
    {m₀ : Mark S ρ} (hsaved : l.saved = f :: fs) (hheld : m₀.loc.now.held ⊆ f.held)
    (heff : f.eff = m₀.loc.now.eff)
    (hagain : ∀ d, X.contract.Good c d → m₀.known d →
      Solo d (m₀.prog, m₀.loc) (k (), ⟨f, fs⟩))
    (hk : (k ()).Sound X.contract c none m₀.known ⟨f, fs⟩) :
    (rollbackToSavepoint k).Sound X.contract c (some m₀) K l := by
  intro db hi hK hI
  have e : (Stmt.rollbackToSavepoint.step db l).2 = ⟨f, fs⟩ := by
    simp [Stmt.step, hsaved]
  rw [e]
  exact Or.inr ⟨m₀, rfl, hheld, heff, hagain, hk⟩

end Rules

end Sql
