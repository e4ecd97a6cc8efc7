/-
  File:      Eri/Sql/Parts.lean
  Subject:   Parts of a service.

  A service with many kinds of tasks has parts: the tasks of one kind alone, with their own
  results, over the same machine. To a part, the calls of all other tasks come from outside.

  * `map_map_cancel`, `Meets.and` -- what parts need of processes;
  * `Part` -- how a service is read as one with fewer tasks;
  * `Part.see` -- a server of the whole, as the part sees it;
  * **`Part.reachable`** -- every run of the whole is a run of the part;
  * `Part.worker_of`, `Part.at_see` -- a worker of the part is one of the whole, and the other
    way round.
-/
import Eri.Sql.Server

namespace Sql

variable {S : Schema} {I : Interface} {C K L α β : Type}

/-! ## 1. Processes -/

namespace Process

variable {ok : (q : I.Ask) → I.Answer q → Prop} {may : Record I → I.Call → Prop}

/-- A result that is wrapped and unwrapped again. -/
theorem map_map_cancel {f : α → β} {g : β → α} (h : ∀ a, g (f a) = a) (p : Process I α) :
    g <$> f <$> p = p := by
  induction p with
  | done a => exact congrArg Process.done (h a)
  | ask q next ih => exact congrArg (Process.ask q) (funext ih)
  | call c next ih => exact congrArg (Process.call c) (funext ih)

/-- Nothing is demanded. -/
theorem meets_anything (p : Process I α) (h : Record I) :
    p.Meets ok (fun _ _ => True) h fun _ _ => True := by
  induction p generalizing h with
  | done a => exact trivial
  | ask q next ih => exact fun a _ => ih a _
  | call c next ih => exact ⟨trivial, fun n r => ih r _⟩

/-- **Two demands on a process** are met together. -/
theorem Meets.and {may' : Record I → I.Call → Prop} {Q Q' : Record I → α → Prop}
    {p : Process I α} {h : Record I} (hp : p.Meets ok may h Q) (hp' : p.Meets ok may' h Q') :
    p.Meets ok (fun h c => may h c ∧ may' h c) h fun h a => Q h a ∧ Q' h a := by
  induction p generalizing h with
  | done a => exact ⟨hp, hp'⟩
  | ask q next ih => exact fun a ha => ih a (hp a ha) (hp' a ha)
  | call c next ih => exact ⟨⟨hp.1, hp'.1⟩, fun n r => ih r (hp.2 n r) (hp'.2 n r)⟩

end Process

open Process (meets_anything)

/-! ## 2. Parts -/

/-- Where a worker stands, with its result read by `read`. -/
def Progress.map (read : α → β) : Progress I α → Progress I β
  | .ready p => .ready (read <$> p)
  | .waiting n next => .waiting n fun r => read <$> next r

/-- **A part of a service**: the tasks it shows and how it reads their results. The processes of
    the other tasks make only calls that, to the part, may come from outside. -/
structure Part (V : Service S I C K α) (U : Service S I C L β) where
  shown : K → Option L
  read : α → β
  prog : U.prog = V.prog
  contract : U.contract = V.contract
  asks : U.asks = V.asks
  possible : ∀ c, V.possible c → U.possible c
  outside : ∀ c, V.outside c → U.outside c
  body : ∀ t l, shown t = some l → U.body l = read <$> V.body t
  answers : ∀ t l, shown t = some l → ∀ q a, V.answers t q a → U.answers l q a
  others : ∀ t, shown t = none → (V.body t).Meets (V.answers t)
    (fun _ q => ∀ c, V.asks c = q → U.outside c) [] fun _ _ => True

namespace Part

variable {V : Service S I C K α} {U : Service S I C L β} (R : Part V U)

/-- A worker, if the part shows its task. -/
def worker (w : Worker I K α) : Option (Worker I L β) :=
  (R.shown w.task).map fun l => ⟨l, w.record, w.progress.map R.read⟩

/-- **A server of the whole, as the part sees it.** -/
def see (W : Server S I C K α) : Server S I C L β :=
  ⟨W.store, W.workers.filterMap R.worker⟩

variable {R} {W W' : Server S I C K α} {db : Db S}

theorem worker_some {t : K} {l : L} (ht : R.shown t = some l) (h : Record I)
    (p : Progress I α) : R.worker ⟨t, h, p⟩ = some ⟨l, h, p.map R.read⟩ := by
  unfold worker
  rw [ht]
  rfl

theorem worker_none {t : K} (ht : R.shown t = none) (h : Record I) (p : Progress I α) :
    R.worker ⟨t, h, p⟩ = none := by
  unfold worker
  rw [ht]
  rfl

/-- Where a list has an element, in three parts. -/
theorem split_at {γ : Type} {l : List γ} {i : Nat} {x : γ} (hi : l[i]? = some x) :
    ∃ before after, l = before ++ x :: after ∧ ∀ y, l.set i y = before ++ y :: after := by
  obtain ⟨hlt, hx⟩ := List.getElem?_eq_some_iff.mp hi
  refine ⟨l.take i, l.drop (i + 1), ?_, fun y => List.set_eq_take_append_cons_drop.trans
    (if_pos hlt)⟩
  rw [← hx, List.getElem_cons_drop, List.take_append_drop]

/-- **A worker of the part goes on** when it does in the whole. -/
theorem see_set {i : Nat} {t : K} {l : L} {h : Record I} {p : Progress I α}
    (ht : R.shown t = some l) (hi : W.At i t h p) :
    ∃ j, (R.see W).At j l h (p.map R.read) ∧ ∀ h' p',
      (W.workers.set i ⟨t, h', p'⟩).filterMap R.worker =
        (R.see W).workers.set j ⟨l, h', p'.map R.read⟩ := by
  obtain ⟨before, after, hl, hset⟩ := split_at hi
  have hsee : ∀ h p, (before ++ ⟨t, h, p⟩ :: after).filterMap R.worker =
      before.filterMap R.worker ++ ⟨l, h, p.map R.read⟩ :: after.filterMap R.worker := by
    intro h p
    rw [List.filterMap_append, List.filterMap_cons_some (worker_some ht h p)]
  have hworkers : (R.see W).workers = _ := (congrArg (List.filterMap R.worker) hl).trans (hsee h p)
  refine ⟨(before.filterMap R.worker).length, ?_, fun h' p' => ?_⟩
  · unfold Server.At
    rw [hworkers, List.getElem?_append_right (Nat.le_refl _), Nat.sub_self]
    rfl
  · rw [hset, hsee, hworkers, List.set_append_right _ _ (Nat.le_refl _), Nat.sub_self]
    rfl

/-- The part does not see how the other workers go on. -/
theorem see_set_none {i : Nat} {t : K} {h h' : Record I} {p p' : Progress I α}
    (ht : R.shown t = none) (hi : W.At i t h p) :
    (W.workers.set i ⟨t, h', p'⟩).filterMap R.worker = (R.see W).workers := by
  obtain ⟨before, after, hl, hset⟩ := split_at hi
  have hsee : ∀ h p, (before ++ ⟨t, h, p⟩ :: after).filterMap R.worker =
      before.filterMap R.worker ++ after.filterMap R.worker := by
    intro h p
    rw [List.filterMap_append, List.filterMap_cons_none (worker_none ht h p)]
  exact (hset _).symm ▸ (hsee h' p').trans
    ((hsee h p).symm.trans (congrArg (List.filterMap R.worker) hl).symm)

/-! ## 3. Runs -/

/-- The calls that workers make for tasks the part does not show. -/
def Apart (R : Part V U) (t : K) (_ : Record I) (q : I.Call) : Prop :=
  R.shown t = none → ∀ c, V.asks c = q → U.outside c

theorem body_meets (t : K) :
    (V.body t).Meets (V.answers t) (R.Apart t) [] fun _ _ => True := by
  cases ht : R.shown t with
  | none => exact (R.others t ht).allow fun h q hq _ => hq
  | some l =>
      refine (meets_anything _ _).allow fun h q _ hnone => ?_
      rw [ht] at hnone
      cases hnone

theorem store_step (R : Part V U) {M M' : Machine S C I.Reply}
    (hs : Step V.prog V.contract.compat M M') : Step U.prog U.contract.compat M M' := by
  rw [R.prog, R.contract]
  exact hs

/-- **A step of the whole is a step of the part**, or one it does not see. -/
theorem see_step (hS : Sound V R.Apart (fun _ _ _ => True) W) (hs : V.Step W W') :
    U.Step (R.see W) (R.see W') ∨ R.see W' = R.see W := by
  cases hs with
  | arrive t =>
      cases ht : R.shown t with
      | none =>
          refine Or.inr ?_
          unfold see
          rw [List.filterMap_append, List.filterMap_cons_none (worker_none ht _ _)]
          simp
      | some l =>
          have hstep : U.Step (R.see W) _ := .arrive _ l
          rw [R.body t l ht] at hstep
          refine Or.inl ?_
          unfold see at hstep ⊢
          rw [List.filterMap_append, List.filterMap_cons_some (worker_some ht _ _)]
          exact hstep
  | answer i t h q next a hi ha =>
      cases ht : R.shown t with
      | none => exact Or.inr (congrArg (Server.mk W.store) (see_set_none ht hi))
      | some l =>
          obtain ⟨j, hj, hset⟩ := see_set ht hi
          refine Or.inl ?_
          have hstep := Service.Step.answer (R.see W) j l h q _ a hj (R.answers t l ht q a ha)
          unfold see at hstep ⊢
          rw [hset]
          exact hstep
  | issue i t h next c M hi hc hstore hM =>
      cases ht : R.shown t with
      | none =>
          have hstands := hS.stands _ (List.mem_of_getElem? hi)
          have hout : U.outside c := hstands.1 ht c rfl
          refine Or.inl ?_
          have hstep := Service.Step.visit (R.see W) c M (R.possible c hc) hout
            (R.store_step hstore) hM
          unfold see at hstep ⊢
          rw [see_set_none ht hi]
          exact hstep
      | some l =>
          obtain ⟨j, hj, hset⟩ := see_set ht hi
          have hj' : (R.see W).At j l h (.ready (.call (U.asks c) fun r => R.read <$> next r)) := by
            rw [R.asks]
            exact hj
          refine Or.inl ?_
          have hstep := Service.Step.issue (R.see W) j l h _ c M hj' (R.possible c hc)
            (R.store_step hstore) hM
          unfold see at hstep ⊢
          rw [hset, ← R.asks]
          exact hstep
  | receive i t h n next c r hi hr =>
      cases ht : R.shown t with
      | none => exact Or.inr (congrArg (Server.mk W.store) (see_set_none ht hi))
      | some l =>
          obtain ⟨j, hj, hset⟩ := see_set ht hi
          refine Or.inl ?_
          have hstep := Service.Step.receive (V := U) (R.see W) j l h n _ c r hj hr
          unfold see at hstep ⊢
          rw [hset]
          exact hstep
  | lose i t h n next c hi hr =>
      cases ht : R.shown t with
      | none => exact Or.inr (congrArg (Server.mk W.store) (see_set_none ht hi))
      | some l =>
          obtain ⟨j, hj, hset⟩ := see_set ht hi
          refine Or.inl ?_
          have hstep := Service.Step.lose (V := U) (R.see W) j l h n _ c hj hr
          unfold see at hstep ⊢
          rw [hset]
          exact hstep
  | work M hstore hM => exact Or.inl (.work (R.see W) M (R.store_step hstore) hM)
  | visit c M hc hout hstore hM =>
      exact Or.inl (.visit (R.see W) c M (R.possible c hc) (R.outside c hout)
        (R.store_step hstore) hM)

/-- **Every run of the whole is a run of the part.** -/
theorem reachable (h : V.Reachable db W) : U.Reachable db (R.see W) := by
  induction h with
  | init => exact .init
  | step h hs ih =>
      rcases see_step (sound_reachable body_meets h) hs with hstep | hsame
      · exact ih.step hstep
      · rwa [hsame]

/-! ## 4. Workers -/

/-- A worker of the part is one of the whole. -/
theorem worker_of {u : Worker I L β} (hu : u ∈ (R.see W).workers) :
    ∃ w ∈ W.workers, R.worker w = some u := List.mem_filterMap.mp hu

/-- **A worker of the whole, at its end, is at its end in the part.** -/
theorem at_see {i : Nat} {t : K} {l : L} {h : Record I} {a : α} (ht : R.shown t = some l)
    (hi : W.At i t h (.ready (.done a))) :
    ∃ j, (R.see W).At j l h (.ready (.done (R.read a))) := by
  obtain ⟨j, hj, _⟩ := see_set ht hi
  exact ⟨j, hj⟩

end Part

end Sql
